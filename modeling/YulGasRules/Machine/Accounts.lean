import Mathlib.Data.Fin.Basic
import YulGasRules.Collections.FiniteMaps
import YulGasRules.Machine.Ops

/-!
# Balances and accounts

Words are added modulo their size, so that a transfer may destroy value by an overflow
at the receiver.  It never creates any: the total of all balances, as a natural number,
does not increase.  Nothing but the balances changes in a transfer.
-/

namespace YulGasRules

open Collections

namespace UInt256

/-- A sum may wrap around, and is not too large then. -/
theorem toNat_add_le (a b : UInt256) : (a + b).toNat ≤ a.toNat + b.toNat :=
  Nat.mod_le _ _

/-- A difference does not wrap around where there is enough to take from. -/
theorem toNat_sub_of_le {a b : UInt256} (le : b.toNat ≤ a.toNat) :
    (a - b).toNat = a.toNat - b.toNat :=
  Fin.coe_sub_iff_le.mpr le

theorem eq_of_toNat_eq {a b : UInt256} (same : a.toNat = b.toNat) : a = b :=
  congrArg UInt256.mk (Fin.ext same)

theorem add_zero_eq (a : UInt256) : a + ⟨0⟩ = a :=
  congrArg UInt256.mk (Fin.add_zero a.val)

theorem sub_zero_eq (a : UInt256) : a - ⟨0⟩ = a :=
  eq_of_toNat_eq (toNat_sub_of_le (Nat.zero_le a.toNat))

end UInt256

/-! ## Evolutions of accounts -/

/-- An account keeps its code and its nonce, and a fresh one has neither. -/
def Account.identity (τ : OperationType) : Evolution (Account τ) where
  kept before after := after.code = before.code ∧ after.nonce = before.nonce
  fresh account :=
    account.code = (default : Account τ).code ∧ account.nonce = (default : Account τ).nonce
  refl := fun _ => ⟨rfl, rfl⟩
  trans := fun _ _ _ first second =>
    ⟨second.1.trans first.1, second.2.trans first.2⟩
  stays := fun _ _ fresh kept => ⟨kept.1.trans fresh.1, kept.2.trans fresh.2⟩

namespace AccountMap

variable {τ : OperationType} {σ σ' : AccountMap τ}

/-- What all accounts hold together. -/
def totalBalance (σ : AccountMap τ) : Nat :=
  total (fun account : Account τ => account.balance.toNat) σ

/-- The balance at an address, where none is zero. -/
def balanceAt (σ : AccountMap τ) (addr : AccountAddress) : Nat :=
  weightAt (fun account : Account τ => account.balance.toNat) σ addr

theorem balanceAt_of_lookup {addr : AccountAddress} {account : Account τ}
    (present : σ.lookup addr = some account) : σ.balanceAt addr = account.balance.toNat := by
  rw [balanceAt, weightAt, present]
  rfl

theorem balanceAt_of_absent {addr : AccountAddress} (absent : σ.lookup addr = none) :
    σ.balanceAt addr = 0 := by
  rw [balanceAt, weightAt, absent]
  rfl

/-- The balance at the address is exchanged for the new one. -/
theorem totalBalance_insert (σ : AccountMap τ) (addr : AccountAddress) (account : Account τ) :
    totalBalance (σ.insert addr account) + σ.balanceAt addr =
      σ.totalBalance + account.balance.toNat :=
  total_insert _ σ addr account

/-! ## Transfers -/

/-- Who pays has an account and enough in it. -/
theorem exists_of_decreaseBalance {addr : AccountAddress} {amount : UInt256}
    (decreased : decreaseBalance τ σ addr amount = some σ') :
    ∃ account, σ.lookup addr = some account ∧ amount.toNat ≤ account.balance.toNat ∧
      σ' = σ.insert addr { account with balance := account.balance - amount } := by
  simp only [decreaseBalance] at decreased
  split at decreased
  · cases decreased
  · rename_i account present
    split at decreased
    · cases decreased
    · rename_i enough
      cases decreased
      exact ⟨account, present, Nat.le_of_not_lt enough, rfl⟩

/-- A transfer takes from the sender first, so that a receiver who is also the sender gets
it back. -/
theorem exists_of_transferBalance {fromAddr toAddr : AccountAddress} {amount : UInt256}
    (paid : transferBalance τ σ fromAddr toAddr amount = some σ') :
    ∃ account, σ.lookup fromAddr = some account ∧
      amount.toNat ≤ account.balance.toNat ∧
      σ' = increaseBalance τ
        (σ.insert fromAddr { account with balance := account.balance - amount })
        toAddr amount := by
  simp only [transferBalance] at paid
  split at paid
  · cases paid
  · rename_i decreased
    cases paid
    rcases exists_of_decreaseBalance decreased with ⟨account, present, enough, rfl⟩
    exact ⟨account, present, enough, rfl⟩

/-- A receiver gains at most the amount. -/
theorem totalBalance_increaseBalance_le (addr : AccountAddress) (amount : UInt256) :
    totalBalance (increaseBalance τ σ addr amount) ≤ σ.totalBalance + amount.toNat := by
  simp only [increaseBalance]
  split
  · rename_i absent
    have inserted := totalBalance_insert σ addr { (default : Account τ) with balance := amount }
    rw [balanceAt_of_absent absent] at inserted
    exact Nat.le_of_eq inserted
  · rename_i account present
    have inserted := totalBalance_insert σ addr
      { account with balance := account.balance + amount }
    rw [balanceAt_of_lookup present] at inserted
    have sum := UInt256.toNat_add_le account.balance amount
    simp only at inserted
    omega

/-- A payer loses exactly the amount. -/
theorem totalBalance_decrease {addr : AccountAddress} {account : Account τ} {amount : UInt256}
    (present : σ.lookup addr = some account) (enough : amount.toNat ≤ account.balance.toNat) :
    totalBalance (σ.insert addr { account with balance := account.balance - amount }) +
      amount.toNat = σ.totalBalance := by
  have inserted := totalBalance_insert σ addr
    { account with balance := account.balance - amount }
  rw [balanceAt_of_lookup present] at inserted
  have difference := UInt256.toNat_sub_of_le enough
  simp only [difference] at inserted
  omega

/-- A transfer does not create value. -/
theorem totalBalance_transfer_le {fromAddr toAddr : AccountAddress} {amount : UInt256}
    (paid : transferBalance τ σ fromAddr toAddr amount = some σ') :
    σ'.totalBalance ≤ σ.totalBalance := by
  rcases exists_of_transferBalance paid with ⟨account, present, enough, rfl⟩
  rw [← totalBalance_decrease present enough]
  exact totalBalance_increaseBalance_le toAddr amount

/-! ## Balances that move as a whole -/

/-- A cleared account loses what it had. -/
theorem totalBalance_clear {addr : AccountAddress} {account : Account τ}
    (present : σ.lookup addr = some account) (cleared : Account τ)
    (zero : cleared.balance = ⟨0⟩) :
    totalBalance (σ.insert addr cleared) + account.balance.toNat = σ.totalBalance := by
  have inserted := totalBalance_insert σ addr cleared
  rw [balanceAt_of_lookup present, zero] at inserted
  exact inserted

/-- A balance that moves to another account as a whole does not become more. -/
theorem totalBalance_move_le {fromAddr toAddr : AccountAddress}
    {sender cleared receiver : Account τ}
    (present : σ.lookup fromAddr = some sender) (distinct : fromAddr ≠ toAddr)
    (zero : cleared.balance = ⟨0⟩)
    (earned : receiver.balance.toNat ≤ σ.balanceAt toAddr + sender.balance.toNat) :
    totalBalance ((σ.insert toAddr receiver).insert fromAddr cleared) ≤ σ.totalBalance := by
  have credited := totalBalance_insert σ toAddr receiver
  have still : (σ.insert toAddr receiver).lookup fromAddr = some sender := by
    rw [Finmap.lookup_insert_of_ne σ distinct]
    exact present
  have debited := totalBalance_clear still cleared zero
  omega

/-- A balance that is cleared twice is burnt. -/
theorem totalBalance_burn_le {addr : AccountAddress} {account once twice : Account τ}
    (present : σ.lookup addr = some account) (zero : once.balance = ⟨0⟩)
    (zero' : twice.balance = ⟨0⟩) :
    totalBalance ((σ.insert addr once).insert addr twice) ≤ σ.totalBalance := by
  have first := totalBalance_clear present once zero
  have second := totalBalance_clear (Finmap.lookup_insert (a := addr) (b := once) σ) twice zero'
  omega

/-! ## Accounts through transfers -/

/-- Old accounts change in their balance and new ones have nothing but a balance. -/
theorem evolves_of_transfer {evolution : Evolution (Account τ)}
    {fromAddr toAddr : AccountAddress} {amount : UInt256}
    (paid : transferBalance τ σ fromAddr toAddr amount = some σ')
    (pays : ∀ account : Account τ, amount.toNat ≤ account.balance.toNat →
      evolution.kept account { account with balance := account.balance - amount })
    (earns : ∀ account : Account τ,
      evolution.kept account { account with balance := account.balance + amount })
    (starts : evolution.fresh { (default : Account τ) with balance := amount }) :
    evolution.Evolves σ σ' := by
  rcases exists_of_transferBalance paid with ⟨account, present, enough, rfl⟩
  have debited : evolution.Evolves σ
      (σ.insert fromAddr { account with balance := account.balance - amount }) :=
    .insert_old present (pays account enough)
  apply debited.trans
  simp only [increaseBalance]
  split
  · rename_i absent
    exact .insert_new absent starts
  · rename_i receiver found
    exact .insert_old found (earns receiver)

/-- A transfer keeps the code and the nonce of every account. -/
theorem identity_of_transfer {fromAddr toAddr : AccountAddress} {amount : UInt256}
    (paid : transferBalance τ σ fromAddr toAddr amount = some σ') :
    (Account.identity τ).Evolves σ σ' :=
  evolves_of_transfer paid (fun _ _ => ⟨rfl, rfl⟩) (fun _ => ⟨rfl, rfl⟩) ⟨rfl, rfl⟩

end AccountMap

end YulGasRules
