/-!
# Outcomes of operations

What can be said of an operation that may fail and changes a state either way.  `Ends`
speaks of the one outcome from a given state; `Preserves` speaks of an invariant of the
state that every outcome keeps, and is composed along the text of the operation.
-/

namespace WebAssembly

variable {ε σ α β : Type}

theorem bind_eq_of_eq_ok
    {x : EStateM ε σ α} {f : α → EStateM ε σ β} {s s' : σ} {a : α}
    (h : x s = .ok a s') :
    (x >>= f) s = f a s' := by
  simp only [Bind.bind, EStateM.bind, h]

theorem bind_eq_of_eq_error
    {x : EStateM ε σ α} {f : α → EStateM ε σ β} {s s' : σ} {e : ε}
    (h : x s = .error e s') :
    (x >>= f) s = .error e s' := by
  simp only [Bind.bind, EStateM.bind, h]

/-- From the given state the operation succeeds with the first condition, or fails with
the second one. -/
def Ends (x : EStateM ε σ α) (s : σ) (onOk : α → σ → Prop)
    (onError : ε → σ → Prop) : Prop :=
  match x s with
  | .ok a s' => onOk a s'
  | .error e s' => onError e s'

namespace Ends

variable {x : EStateM ε σ α} {f : α → EStateM ε σ β} {s : σ} {P P' : α → σ → Prop}
  {Q : β → σ → Prop} {E E' : ε → σ → Prop}

theorem of_eq_ok
    {a : α} {s' : σ} (h : x s = .ok a s') (hP : P a s') : Ends x s P E := by
  rw [Ends, h]
  exact hP

theorem of_eq_error
    {e : ε} {s' : σ} (h : x s = .error e s') (hE : E e s') : Ends x s P E := by
  rw [Ends, h]
  exact hE

theorem onOk
    {a : α} {s' : σ} (h : Ends x s P E) (hx : x s = .ok a s') : P a s' := by
  rw [Ends, hx] at h
  exact h

theorem onError
    {e : ε} {s' : σ} (h : Ends x s P E) (hx : x s = .error e s') : E e s' := by
  rw [Ends, hx] at h
  exact h

/-- An operation that goes on as another one does has its outcome. -/
theorem of_eq
    {y : EStateM ε σ α} {s' : σ} (h : x s = y s') (hy : Ends y s' P E) :
    Ends x s P E := by
  rw [Ends, h]
  exact hy

/-- A property of the outcome may be shown for success and failure apart. -/
theorem result
    {R : EStateM.Result ε σ α → Prop}
    (h : Ends x s (fun a s' => R (.ok a s')) fun e s' => R (.error e s')) :
    R (x s) := by
  unfold Ends at h
  split at h
  · rename_i hx
    exact hx ▸ h
  · rename_i hx
    exact hx ▸ h

theorem mono
    (h : Ends x s P E) (hP : ∀ a s', P a s' → P' a s') (hE : ∀ e s', E e s' → E' e s') :
    Ends x s P' E' := by
  unfold Ends at h ⊢
  cases hx : x s with
  | ok a s' =>
      rw [hx] at h
      exact hP a s' h
  | error e s' =>
      rw [hx] at h
      exact hE e s' h

theorem and
    (h : Ends x s P E) (h' : Ends x s P' E') :
    Ends x s (fun a s' => P a s' ∧ P' a s') (fun e s' => E e s' ∧ E' e s') := by
  unfold Ends at h h' ⊢
  cases hx : x s with
  | ok a s' =>
      rw [hx] at h h'
      exact ⟨h, h'⟩
  | error e s' =>
      rw [hx] at h h'
      exact ⟨h, h'⟩

theorem bind
    (hx : Ends x s P E) (hf : ∀ a s', P a s' → Ends (f a) s' Q E) :
    Ends (x >>= f) s Q E := by
  unfold Ends at hx
  cases h : x s with
  | ok a s' =>
      rw [h] at hx
      rw [Ends, bind_eq_of_eq_ok h]
      exact hf a s' hx
  | error e s' =>
      rw [h] at hx
      exact of_eq_error (bind_eq_of_eq_error h) hx

/-- A first part whose outcome is known is run. -/
theorem bind_of_eq_ok
    {a : α} {s' : σ} (hx : x s = .ok a s') (hf : Ends (f a) s' Q E) :
    Ends (x >>= f) s Q E := by
  refine bind (P := fun b t => b = a ∧ t = s') (of_eq_ok hx ⟨rfl, rfl⟩) ?_
  rintro _ _ ⟨rfl, rfl⟩
  exact hf

theorem pure_bind
    {a : α} (h : Ends (f a) s Q E) : Ends (Pure.pure a >>= f) s Q E :=
  h

theorem get_bind
    {f : σ → EStateM ε σ β} (h : Ends (f s) s Q E) : Ends (get >>= f) s Q E :=
  h

theorem modify_bind
    {change : σ → σ} {f : PUnit → EStateM ε σ β} (h : Ends (f ⟨⟩) (change s) Q E) :
    Ends (modify change >>= f) s Q E :=
  h

theorem ite
    {p : Prop} [Decidable p] {y : EStateM ε σ α} (hx : p → Ends x s P E)
    (hy : ¬p → Ends y s P E) :
    Ends (if p then x else y) s P E := by
  split
  · exact hx ‹p›
  · exact hy ‹¬p›

theorem map
    {g : α → β} (h : Ends x s (fun a s' => Q (g a) s') E) : Ends (g <$> x) s Q E := by
  unfold Ends at h
  cases hx : x s with
  | ok a s' =>
      rw [hx] at h
      exact of_eq_ok (by simp only [Functor.map, EStateM.map, hx]) h
  | error e s' =>
      rw [hx] at h
      exact of_eq_error (by simp only [Functor.map, EStateM.map, hx]) h

end Ends

/-- Like `Ends`, but only of outcomes whose state lies within a bound. -/
def EndsWithin (B : σ → Prop) (x : EStateM ε σ α) (s : σ) (onOk : α → σ → Prop)
    (onError : ε → σ → Prop) : Prop :=
  Ends x s (fun a s' => B s' → onOk a s') (fun e s' => B s' → onError e s')

theorem EndsWithin.mono
    {B : σ → Prop} {x : EStateM ε σ α} {s : σ} {P P' : α → σ → Prop}
    {E E' : ε → σ → Prop} (h : EndsWithin B x s P E) (hP : ∀ a s', P a s' → P' a s')
    (hE : ∀ e s', E e s' → E' e s') :
    EndsWithin B x s P' E' :=
  Ends.mono h (fun a s' h hB => hP a s' (h hB)) fun e s' h hB => hE e s' (h hB)

theorem Ends.within
    {B : σ → Prop} {x : EStateM ε σ α} {s : σ} {P : α → σ → Prop} {E : ε → σ → Prop}
    (h : Ends x s P E) :
    EndsWithin B x s P E :=
  h.mono (fun _ _ hP _ => hP) fun _ _ hE _ => hE

/-- A first part whose outcome is known without the bound. -/
theorem Ends.within_bind
    {B : σ → Prop} {x : EStateM ε σ α} {f : α → EStateM ε σ β} {s : σ}
    {P : α → σ → Prop} {Q : β → σ → Prop} {E : ε → σ → Prop} (hx : Ends x s P E)
    (hf : ∀ a s', P a s' → EndsWithin B (f a) s' Q E) :
    EndsWithin B (x >>= f) s Q E :=
  Ends.bind (hx.mono (fun _ _ => id) fun _ _ hE _ => hE) hf

/-- Every outcome of the operation keeps the invariant, and every result satisfies the
condition. -/
def Preserves (J : σ → Prop) (x : EStateM ε σ α) (P : α → Prop) : Prop :=
  ∀ s, J s → Ends x s (fun a s' => P a ∧ J s') (fun _ s' => J s')

namespace Preserves

variable {J : σ → Prop} {x : EStateM ε σ α} {f : α → EStateM ε σ β} {P P' : α → Prop}
  {Q : β → Prop}

theorem mono
    (h : Preserves J x P) (hP : ∀ a, P a → P' a) : Preserves J x P' := by
  intro s hs
  exact (h s hs).mono (fun a _ ha => ⟨hP a ha.1, ha.2⟩) (fun _ _ => id)

theorem bind
    (hx : Preserves J x P) (hf : ∀ a, P a → Preserves J (f a) Q) :
    Preserves J (x >>= f) Q := by
  intro s hs
  exact (hx s hs).bind fun a s' ha => hf a ha.1 s' ha.2

/-- An operation that keeps one invariant may be followed by a part that has another
purpose. -/
theorem ends_bind
    {s : σ} {Q : β → σ → Prop} {E : ε → σ → Prop} (hx : Preserves J x P) (hs : J s)
    (hE : ∀ e s', J s' → E e s') (hf : ∀ a s', P a → J s' → Ends (f a) s' Q E) :
    Ends (x >>= f) s Q E := by
  have hends : Ends x s (fun a s' => P a ∧ J s') E := (hx s hs).mono (fun _ _ => id) hE
  exact hends.bind fun a s' h => hf a s' h.1 h.2

theorem pure
    {a : α} (h : P a) : Preserves J (Pure.pure a : EStateM ε σ α) P :=
  fun _ hs => ⟨h, hs⟩

theorem throw
    {e : ε} : Preserves J (MonadExcept.throw e : EStateM ε σ α) P :=
  fun _ hs => hs

theorem map
    {g : α → β} (h : Preserves J x fun a => Q (g a)) : Preserves J (g <$> x) Q :=
  fun s hs => Ends.map (h s hs)

theorem get : Preserves J (MonadState.get : EStateM ε σ σ) J :=
  fun _ hs => ⟨hs, hs⟩

theorem modify
    {change : σ → σ} (h : ∀ s, J s → J (change s)) :
    Preserves J (modify change : EStateM ε σ PUnit) fun _ => True :=
  fun s hs => ⟨trivial, h s hs⟩

theorem ite
    {p : Prop} [Decidable p] {y : EStateM ε σ α} (hx : p → Preserves J x P)
    (hy : ¬p → Preserves J y P) :
    Preserves J (if p then x else y) P :=
  fun s hs => Ends.ite (fun h => hx h s hs) fun h => hy h s hs

end Preserves
end WebAssembly
