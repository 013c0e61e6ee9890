import WebAssembly.Validation.Module

/-!
# Attempts that succeed and attempts that do not crash

Each combinator of attempts succeeds exactly under a condition, by which a check that
has passed is turned into what it has checked.  An attempt is safe if it does not crash,
whether it succeeds or fails.
-/

namespace WebAssembly
namespace Attempt

variable {ε ε' α β : Type}

theorem bind_eq_ok
    {x : Except ε α} {f : α → Except ε β} {b : β} :
    (x >>= f) = .ok b ↔ ∃ a, x = .ok a ∧ f a = .ok b := by
  cases x with
  | error failure => simp [bind, Except.bind]
  | ok a => simp [bind, Except.bind]

theorem pure_eq_ok
    {a b : α} :
    (pure a : Except ε α) = .ok b ↔ a = b := by
  simp [pure, Except.pure]

theorem throw_ne_ok
    {cause : ε} {a : α} :
    (throw cause : Except ε α) ≠ .ok a := by
  simp [throw, throwThe, MonadExceptOf.throw]

theorem require_eq_ok
    {condition : Bool} {cause : ε} {u : Unit} :
    require condition cause = .ok u ↔ condition = true := by
  cases condition <;> simp [require, fail]

theorem present_eq_ok
    {entry : Option α} {a : α} :
    (present entry : Attempt ε α) = .ok a ↔ entry = some a := by
  cases entry <;> simp [present, crash]

theorem toOption_eq_some
    {x : Except ε α} {a : α} : x.toOption = some a ↔ x = .ok a := by
  cases x <;> simp [Except.toOption]

theorem orFail_eq_ok
    {cause : ε} {entry : Option α} {a : α} :
    orFail cause entry = .ok a ↔ entry = some a := by
  cases entry <;> simp [orFail, fail]

theorem ofExcept_eq_ok
    {x : Except ε α} {a : α} :
    ofExcept x = .ok a ↔ x = .ok a := by
  cases x <;> simp [ofExcept, fail]

theorem mapCause_eq_ok
    {f : ε → ε'} {x : Attempt ε α} {a : α} :
    mapCause f x = .ok a ↔ x = .ok a := by
  rcases x with (cause | _) | a <;> simp [mapCause, fail, crash]

theorem fail_ne_ok
    {cause : ε} {a : α} :
    (fail cause : Attempt ε α) ≠ .ok a := by
  simp [fail]

theorem forEach_eq_ok
    {attempt : Nat → α → Attempt ε Unit} {position : Nat} {entries : List α}
    {u : Unit} :
    forEach attempt position entries = .ok u ↔
      ∀ i a, entries[i]? = some a → attempt (position + i) a = .ok () := by
  induction entries generalizing position with
  | nil => simp [forEach]
  | cons a rest ih =>
      simp only [forEach, bind_eq_ok, ih]
      constructor
      · rintro ⟨_, hhead, htail⟩ i b hb
        cases i with
        | zero =>
            obtain rfl : a = b := by simpa using hb
            exact hhead
        | succ i =>
            have := htail i b (by simpa using hb)
            rwa [Nat.add_right_comm, Nat.add_assoc] at this
      · intro h
        refine ⟨(), h 0 a rfl, fun i b hb => ?_⟩
        have := h (i + 1) b (by simpa using hb)
        rwa [Nat.add_right_comm, Nat.add_assoc]

/-- The attempt does not crash. -/
def Safe (x : Attempt ε α) : Prop :=
  x ≠ .error .crash

theorem safe_ok {a : α} : Safe (.ok a : Attempt ε α) := by
  simp [Safe]

theorem safe_fail {cause : ε} : Safe (fail cause : Attempt ε α) := by
  simp [Safe, fail]

theorem safe_require {condition : Bool} {cause : ε} :
    Safe (require condition cause) := by
  cases condition <;> simp [Safe, require, fail]

theorem safe_orFail {cause : ε} {entry : Option α} : Safe (orFail cause entry) := by
  cases entry <;> simp [Safe, orFail, fail]

theorem safe_ofExcept {x : Except ε α} : Safe (ofExcept x) := by
  cases x <;> simp [Safe, ofExcept, fail]

theorem safe_present
    {entry : Option α} (h : entry ≠ none) : Safe (present entry : Attempt ε α) := by
  cases entry with
  | none => exact absurd rfl h
  | some a => exact safe_ok

theorem safe_present_bind
    {entry : Option α} {a : α} {f : α → Attempt ε β} (hentry : entry = some a)
    (hf : (f a).Safe) :
    (present entry >>= f).Safe := by
  subst hentry
  exact hf

theorem Safe.bind
    {x : Attempt ε α} {f : α → Attempt ε β} (hx : x.Safe)
    (hf : ∀ a, x = .ok a → (f a).Safe) :
    Safe (x >>= f) := by
  rcases x with (cause | _) | a
  · simp [Safe, Bind.bind, Except.bind]
  · exact absurd rfl hx
  · exact hf a rfl

theorem Safe.mapCause
    {f : ε → ε'} {x : Attempt ε α} (hx : x.Safe) : (mapCause f x).Safe := by
  rcases x with (cause | _) | a
  · simp [Safe, Attempt.mapCause, fail]
  · exact absurd rfl hx
  · exact safe_ok

/-- Every attempt of a series is safe if it is so once those before it have
succeeded. -/
theorem safe_forEach
    {attempt : Nat → α → Attempt ε Unit} {position : Nat} {entries : List α}
    (h : ∀ i a, entries[i]? = some a →
      (∀ j b, j < i → entries[j]? = some b → attempt (position + j) b = .ok ()) →
        (attempt (position + i) a).Safe) :
    (forEach attempt position entries).Safe := by
  induction entries generalizing position with
  | nil => exact safe_ok
  | cons a rest ih =>
      refine (h 0 a rfl (by omega)).bind fun _ hhead => ih fun i b hb hbefore => ?_
      have := h (i + 1) b (by simpa using hb) fun j d hj hd => ?_
      · rwa [Nat.add_right_comm, Nat.add_assoc]
      · cases j with
        | zero =>
            obtain rfl : a = d := by simpa using hd
            exact hhead
        | succ j =>
            have := hbefore j d (by omega) (by simpa using hd)
            rwa [Nat.add_right_comm, Nat.add_assoc] at this

end Attempt

theorem Check.inSection_eq_ok
    {α : Type} {place : Section} {index : Nat} {check : Check α} {a : α} :
    check.inSection place index = .ok a ↔ check = .ok a :=
  Attempt.mapCause_eq_ok

theorem checkEntries_eq_forEach
    {α : Type} {place : Section} {check : Nat → α → Check Unit} {index : Nat}
    {entries : List α} :
    checkEntries place check index entries =
      Attempt.forEach (fun i a => (check i a).inSection place i) index entries := by
  induction entries generalizing index with
  | nil => rfl
  | cons a rest ih => rw [checkEntries, Attempt.forEach, ih]

theorem checkEntries_eq_ok
    {α : Type} {place : Section} {check : Nat → α → Check Unit} {index : Nat}
    {entries : List α} {u : Unit} :
    checkEntries place check index entries = .ok u ↔
      ∀ i a, entries[i]? = some a → check (index + i) a = .ok () := by
  rw [checkEntries_eq_forEach, Attempt.forEach_eq_ok]
  simp only [Check.inSection_eq_ok]

theorem safe_checkEntries
    {α : Type} {place : Section} {check : Nat → α → Check Unit} {index : Nat}
    {entries : List α} (h : ∀ i a, entries[i]? = some a →
      (∀ j b, j < i → entries[j]? = some b → check (index + j) b = .ok ()) →
        (check (index + i) a).Safe) :
    (checkEntries place check index entries).Safe := by
  rw [checkEntries_eq_forEach]
  refine Attempt.safe_forEach fun i a ha hbefore =>
    (h i a ha fun j b hj hb => ?_).mapCause
  exact Check.inSection_eq_ok.mp (hbefore j b hj hb)

end WebAssembly
