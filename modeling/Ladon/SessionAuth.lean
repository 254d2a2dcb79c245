import Ladon.Error
import Ladon.Lib.Run
import Ladon.Lib.Utf8

/-!
The local confirmation of a session: a PIN that lives as long as the session, and a count of the
wrong ones.

The count is shared by everything that asks for the PIN. It starts over with a right PIN or a Touch
ID success; the fifth wrong PIN in a row locks the vault.
-/

namespace Ladon.SessionAuth

open Ladon.Error Ladon.Lib Ladon.Lib.Utf8

def pinSaltBytes : ℕ := 16
def maxFailedPinAttempts : ℕ := 5

/-- Argon2id with the parameters of a PIN: the hash of a PIN under a salt, where there is memory for
it. -/
abbrev PinHash := Bytes → Bytes → Option Bytes

def derive (argon2 : PinHash) (pin salt : Bytes) : Except LadonError Bytes :=
  match argon2 pin salt with
  | some hash => .ok hash
  | none => .error .cryptoUnavailable

structure SessionPin where
  salt : { b : Bytes // b.length = pinSaltBytes }
  hash : Bytes

def isAsciiDigit (b : UInt8) : Bool := 0x30 ≤ b && b ≤ 0x39

def validPin (pin : String) : Bool :=
  4 ≤ (ofString pin).length && (ofString pin).length ≤ 12 && (ofString pin).all isAsciiDigit

namespace SessionPin

/-- A PIN is made of what was typed twice, and of a salt that the random source may not have. -/
def new (argon2 : PinHash) (salt : Option { b : Bytes // b.length = pinSaltBytes })
    (pin confirmation : String) : Except LadonError SessionPin :=
  if pin ≠ confirmation ∨ ¬ validPin pin then .error .invalidPin
  else match salt with
    | none => .error .cryptoUnavailable
    | some salt => (derive argon2 (ofString pin) salt.1).map fun hash => ⟨salt, hash⟩

def verify (argon2 : PinHash) (p : SessionPin) (pin : String) : Except LadonError Unit :=
  match derive argon2 (ofString pin) p.salt.1 with
  | .error e => .error e
  | .ok candidate => require (candidate = p.hash) .approvalAuthenticationFailed

/-- The PIN that was typed has the hash that is kept. -/
def Matches (argon2 : PinHash) (p : SessionPin) (pin : String) : Prop :=
  argon2 (ofString pin) p.salt.1 = some p.hash

instance (argon2 : PinHash) (p : SessionPin) (pin : String) : Decidable (p.Matches argon2 pin) :=
  inferInstanceAs (Decidable (_ = _))

/-- The PIN that was typed has another hash. -/
def Differs (argon2 : PinHash) (p : SessionPin) (pin : String) : Prop :=
  ∃ hash, argon2 (ofString pin) p.salt.1 = some hash ∧ hash ≠ p.hash

variable {argon2 : PinHash} {p : SessionPin} {pin : String}

lemma verify_ok_iff : p.verify argon2 pin = .ok () ↔ p.Matches argon2 pin := by
  unfold verify derive Matches
  cases argon2 (ofString pin) p.salt.1 with
  | none => simp
  | some hash => simp [require_eq_ok]

/-- A PIN that was set is a PIN that verifies. -/
lemma matches_new {salt : Option { b : Bytes // b.length = pinSaltBytes }} {confirmation : String}
    (h : new argon2 salt pin confirmation = .ok p) : p.Matches argon2 pin := by
  unfold new at h
  split at h
  · cases h
  · cases salt with
    | none => cases h
    | some salt =>
      cases hhash : argon2 (ofString pin) salt.1 with
      | none =>
        simp only [derive, hhash] at h
        cases h
      | some hash =>
        simp only [derive, hhash] at h
        cases h
        exact hhash

end SessionPin

inductive PinVerification
  | accepted
  | rejected (remainingAttempts : ℕ)
  | lockVault
  deriving DecidableEq

structure SessionConfirmation where
  pin : Option SessionPin
  failedPinAttempts : ℕ

namespace SessionConfirmation

def touchIdOnly : SessionConfirmation := ⟨none, 0⟩

def withPin (pin : SessionPin) : SessionConfirmation := ⟨some pin, 0⟩

def hasPin (c : SessionConfirmation) : Bool := c.pin.isSome

/-- One wrong PIN more; the count is a byte and saturates. -/
def fail (c : SessionConfirmation) : SessionConfirmation :=
  { c with failedPinAttempts := min (c.failedPinAttempts + 1) 255 }

def verifyPin (argon2 : PinHash) (c : SessionConfirmation) (candidate : String) :
    Except LadonError PinVerification × SessionConfirmation :=
  match c.pin with
  | none => (.ok (.rejected 0), c)
  | some pin =>
    match pin.verify argon2 candidate with
    | .ok () => (.ok .accepted, { c with failedPinAttempts := 0 })
    | .error .approvalAuthenticationFailed =>
      if maxFailedPinAttempts ≤ c.fail.failedPinAttempts then (.ok .lockVault, c.fail)
      else (.ok (.rejected (maxFailedPinAttempts - c.fail.failedPinAttempts)), c.fail)
    | .error e => (.error e, c)

def recordTouchIdSuccess (c : SessionConfirmation) : SessionConfirmation :=
  { c with failedPinAttempts := 0 }

/-! ### What one PIN does -/

/-- The PIN is right and the count starts over; or it is wrong, one more or the last one; or there is
nothing to compare it with. -/
inductive Tried (argon2 : PinHash) (c : SessionConfirmation) (candidate : String) :
    Except LadonError PinVerification × SessionConfirmation → Prop
  | accepted {pin : SessionPin} (set : c.pin = some pin) (right : pin.Matches argon2 candidate) :
      Tried argon2 c candidate (.ok .accepted, { c with failedPinAttempts := 0 })
  | rejected {pin : SessionPin} (set : c.pin = some pin) (wrong : pin.Differs argon2 candidate)
      (left : c.fail.failedPinAttempts < maxFailedPinAttempts) :
      Tried argon2 c candidate
        (.ok (.rejected (maxFailedPinAttempts - c.fail.failedPinAttempts)), c.fail)
  | last {pin : SessionPin} (set : c.pin = some pin) (wrong : pin.Differs argon2 candidate)
      (spent : maxFailedPinAttempts ≤ c.fail.failedPinAttempts) :
      Tried argon2 c candidate (.ok .lockVault, c.fail)
  | unset (unset : c.pin = none) : Tried argon2 c candidate (.ok (.rejected 0), c)
  | unable {pin : SessionPin} (set : c.pin = some pin)
      (unable : argon2 (ofString candidate) pin.salt.1 = none) :
      Tried argon2 c candidate (.error .cryptoUnavailable, c)

variable {argon2 : PinHash} {c : SessionConfirmation} {candidate : String}

lemma failedPinAttempts_fail (h : c.failedPinAttempts < maxFailedPinAttempts) :
    c.fail.failedPinAttempts = c.failedPinAttempts + 1 := by
  simp only [maxFailedPinAttempts] at h
  simp only [fail]
  omega

theorem verifyPin_tried : Tried argon2 c candidate (c.verifyPin argon2 candidate) := by
  obtain ⟨pin, attempts⟩ := c
  cases pin with
  | none => exact .unset rfl
  | some pin =>
    unfold verifyPin
    dsimp only
    cases hhash : argon2 (ofString candidate) pin.salt.1 with
    | none =>
      have hv : pin.verify argon2 candidate = .error .cryptoUnavailable := by
        rw [SessionPin.verify, derive, hhash]
      rw [hv]
      exact .unable rfl hhash
    | some hash =>
      by_cases hright : pin.Matches argon2 candidate
      · rw [SessionPin.verify_ok_iff.mpr hright]
        exact .accepted rfl hright
      · have hne : hash ≠ pin.hash := fun h => hright (hhash.trans (congrArg some h))
        have hv : pin.verify argon2 candidate = .error .approvalAuthenticationFailed := by
          rw [SessionPin.verify, derive, hhash]
          exact if_neg hne
        rw [hv]
        dsimp only
        split_ifs with hspent
        · exact .last rfl ⟨hash, hhash, hne⟩ hspent
        · exact .rejected rfl ⟨hash, hhash, hne⟩ (Nat.lt_of_not_le hspent)

end SessionConfirmation

end Ladon.SessionAuth
