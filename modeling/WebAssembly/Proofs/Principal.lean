import Mathlib.Data.List.Forall2
import WebAssembly.Proofs.Typing

/-!
# Stacks that a running effect stands for

The checker keeps one running effect where the typing rules allow many stacks.  The
stacks that an effect admits are those that fill its results, with each wildcard filled
on its own, above an arbitrary rest if the effect is polymorphic.  Composition with an
effect is exactly the image of this set under it, which is what makes the running effect
principal.
-/

namespace WebAssembly
namespace StackEffect

/-- A type stands where the checker has a known type or the wildcard. -/
def Fills (type known : ValueType) : Prop :=
  type.IsNumber ∧ (known = type ∨ known = .any)

/-- A stack of number types that the effect, taken from an empty stack, can leave. -/
def Admits (effect : StackEffect) (types : List ValueType) : Prop :=
  ∃ below top, types = below ++ top ∧ Numeric below ∧
    List.Forall₂ Fills top effect.results ∧
    (effect.polymorphic = false → below = [])

/-- Number types and wildcards, as they stand in the effects of the checker. -/
def Known (types : List ValueType) : Prop :=
  ∀ type ∈ types, type.IsNumber ∨ type = .any

/-- The effect takes nothing and leaves known types. -/
structure IsClosed (effect : StackEffect) : Prop where
  params : effect.params = []
  results : Known effect.results

/-- A stack that the effect admits once another one has followed it. -/
def AdmitsAfter (effect second : StackEffect) (types : List ValueType) : Prop :=
  ∃ next, effect.andThen second = .ok next ∧ next.params = [] ∧ next.Admits types

def dropTop (effect : StackEffect) : StackEffect :=
  { effect with results := effect.results.dropLast }

theorem listsMatch_eq_true_iff
    {first second : List ValueType} :
    listsMatch first second = true ↔ List.Forall₂ ValueType.Matches first second := by
  induction first generalizing second with
  | nil => cases second <;> simp [listsMatch]
  | cons a first ih =>
      cases second with
      | nil => simp [listsMatch]
      | cons b second => simp [listsMatch, ih]

theorem prefixesMatch_append
    {first second : List ValueType} (hlength : first.length = second.length)
    (moreFirst moreSecond : List ValueType) :
    prefixesMatch (first ++ moreFirst) (second ++ moreSecond) =
      (listsMatch first second && prefixesMatch moreFirst moreSecond) := by
  induction first generalizing second with
  | nil =>
      obtain rfl : second = [] := List.length_eq_zero_iff.mp hlength.symm
      simp [listsMatch]
  | cons a first ih =>
      cases second with
      | nil => simp at hlength
      | cons b second =>
          have hlength : first.length = second.length := by simpa using hlength
          simp [prefixesMatch, listsMatch, ih hlength, Bool.and_assoc]

theorem listsMatch_reverse
    {first second : List ValueType} :
    listsMatch first.reverse second.reverse = listsMatch first second := by
  rw [Bool.eq_iff_iff, listsMatch_eq_true_iff, listsMatch_eq_true_iff,
    List.forall₂_reverse_iff]

/-- Operands that are all on the stack are compared with its top. -/
theorem prefixesMatch_of_enough
    {rest top params : List ValueType} (hlength : top.length = params.length) :
    prefixesMatch (rest ++ top).reverse params.reverse = listsMatch top params := by
  have hreverse : top.reverse.length = params.reverse.length := by simpa using hlength
  have h := prefixesMatch_append hreverse rest.reverse []
  rw [List.append_nil] at h
  rw [List.reverse_append, h, listsMatch_reverse]
  cases rest.reverse <;> simp [prefixesMatch]

/-- Of operands that are not all on the stack, the top ones are compared with the whole
stack. -/
theorem prefixesMatch_of_short
    {stack missing params : List ValueType} (hlength : stack.length = params.length) :
    prefixesMatch stack.reverse (missing ++ params).reverse =
      listsMatch stack params := by
  have hreverse : stack.reverse.length = params.reverse.length := by simpa using hlength
  have h := prefixesMatch_append hreverse [] missing.reverse
  rw [List.append_nil] at h
  rw [List.reverse_append, h, listsMatch_reverse]
  simp [prefixesMatch]

theorem andThen_of_enough
    {first second effect : StackEffect} {rest top : List ValueType}
    (hresults : first.results = rest ++ top)
    (hlength : top.length = second.params.length) :
    first.andThen second = .ok effect ↔
      listsMatch top second.params = true ∧
        effect = {
          params := first.params
          results := if second.polymorphic then second.results else rest ++
            second.results
          polymorphic := first.polymorphic || second.polymorphic } := by
  have hmissing : second.params.take (second.params.length - first.results.length) =
      [] := by
    rw [hresults, List.length_append, hlength,
      Nat.sub_eq_zero_of_le (Nat.le_add_left _ _), List.take_zero]
  have hrest : first.results.take (first.results.length - second.params.length) =
      rest := by
    rw [hresults, List.length_append, hlength, Nat.add_sub_cancel, List.take_left]
  unfold andThen
  rw [hmissing, hrest, hresults, prefixesMatch_of_enough hlength,
    List.nil_append, ite_self]
  split
  · rename_i hmatch
    rw [Except.ok.injEq]
    exact ⟨fun heffect => ⟨hmatch, heffect.symm⟩, fun h => h.2.symm⟩
  · rename_i hmatch
    simp [hmatch]

theorem andThen_of_short
    {first second effect : StackEffect} {missing params : List ValueType}
    (hparams : second.params = missing ++ params)
    (hlength : first.results.length = params.length) :
    first.andThen second = .ok effect ↔
      listsMatch first.results params = true ∧
        effect = {
          params := if first.polymorphic then first.params else missing ++ first.params
          results := second.results
          polymorphic := first.polymorphic || second.polymorphic } := by
  have hmissing : second.params.take (second.params.length - first.results.length) =
      missing := by
    rw [hparams, List.length_append, hlength, Nat.add_sub_cancel, List.take_left]
  have hrest : first.results.take (first.results.length - second.params.length) =
      [] := by
    rw [hparams, List.length_append, hlength,
      Nat.sub_eq_zero_of_le (Nat.le_add_left _ _), List.take_zero]
  unfold andThen
  rw [hmissing, hrest, hparams, prefixesMatch_of_short hlength,
    List.nil_append, ite_self]
  split
  · rename_i hmatch
    rw [Except.ok.injEq]
    exact ⟨fun heffect => ⟨hmatch, heffect.symm⟩, fun h => h.2.symm⟩
  · rename_i hmatch
    simp [hmatch]

theorem andThen_fixed_of_enough
    {first effect : StackEffect} {rest top params results : List ValueType}
    (hresults : first.results = rest ++ top) (hlength : top.length = params.length) :
    first.andThen (Context.fixed params results) = .ok effect ↔
      listsMatch top params = true ∧ effect = { first with
        results := rest ++ results } := by
  have h : first.andThen (Context.fixed params results) = .ok effect ↔ _ :=
    andThen_of_enough hresults hlength
  simpa [Context.fixed] using h

theorem andThen_fixed_of_short
    {first effect : StackEffect} {missing top results : List ValueType}
    (hlength : first.results.length = top.length) :
    first.andThen (Context.fixed (missing ++ top) results) = .ok effect ↔
      listsMatch first.results top = true ∧
        effect = { first with
          params := if first.polymorphic then first.params else missing ++ first.params
          results } := by
  have h : first.andThen (Context.fixed (missing ++ top) results) = .ok effect ↔ _ :=
    andThen_of_short rfl hlength
  simpa [Context.fixed] using h

theorem Fills.eq_of_isNumber
    {type known : ValueType} (h : Fills type known) (hknown : known.IsNumber) :
    type = known := by
  rcases h with ⟨-, rfl | rfl⟩
  · rfl
  · exact absurd hknown ValueType.not_isNumber_any

theorem forall₂_fills_numeric_iff
    {types known : List ValueType} (hknown : Numeric known) :
    List.Forall₂ Fills types known ↔ types = known := by
  induction known generalizing types with
  | nil => simp
  | cons type known ih =>
      obtain ⟨htype, hknown⟩ := numeric_cons.mp hknown
      cases types with
      | nil => simp
      | cons first types =>
          rw [List.forall₂_cons, ih hknown, List.cons.injEq]
          constructor
          · rintro ⟨hfills, rfl⟩
            exact ⟨hfills.eq_of_isNumber htype, rfl⟩
          · rintro ⟨rfl, rfl⟩
            exact ⟨⟨htype, .inl rfl⟩, rfl⟩

theorem known_cons
    {type : ValueType} {types : List ValueType} :
    Known (type :: types) ↔ (type.IsNumber ∨ type = .any) ∧ Known types := by
  simp [Known]

theorem known_append
    {first second : List ValueType} :
    Known (first ++ second) ↔ Known first ∧ Known second := by
  simp [Known, or_imp, forall_and]

theorem known_of_numeric
    {types : List ValueType} (h : Numeric types) : Known types :=
  fun type htype => .inl (h type htype)

/-- A number type fills two known types exactly when they match. -/
theorem exists_fills_iff_matches
    {first second : ValueType} (hfirst : first.IsNumber ∨ first = .any)
    (hsecond : second.IsNumber ∨ second = .any) :
    (∃ type, Fills type first ∧ Fills type second) ↔ first.Matches second := by
  constructor
  · rintro ⟨type, ⟨-, rfl | rfl⟩, -, rfl | rfl⟩
    · exact .inl rfl
    · exact .inr (.inr rfl)
    · exact .inr (.inl rfl)
    · exact .inl rfl
  · rintro (rfl | rfl | rfl)
    · rcases hfirst with hfirst | rfl
      · exact ⟨first, ⟨hfirst, .inl rfl⟩, hfirst, .inl rfl⟩
      · exact ⟨.i32, ⟨trivial, .inr rfl⟩, trivial, .inr rfl⟩
    · rcases hsecond with hsecond | rfl
      · exact ⟨second, ⟨hsecond, .inr rfl⟩, hsecond, .inl rfl⟩
      · exact ⟨.i32, ⟨trivial, .inr rfl⟩, trivial, .inr rfl⟩
    · rcases hfirst with hfirst | rfl
      · exact ⟨first, ⟨hfirst, .inl rfl⟩, hfirst, .inr rfl⟩
      · exact ⟨.i32, ⟨trivial, .inr rfl⟩, trivial, .inr rfl⟩

/-- Number types fill two lists of known types exactly when the lists match. -/
theorem exists_forall₂_fills_iff_matches
    {first second : List ValueType} (hfirst : Known first) (hsecond : Known second) :
    (∃ types, List.Forall₂ Fills types first ∧ List.Forall₂ Fills types second) ↔
      List.Forall₂ ValueType.Matches first second := by
  induction first generalizing second with
  | nil =>
      constructor
      · rintro ⟨types, hnil, hfills⟩
        rw [List.forall₂_nil_right_iff.mp hnil, List.forall₂_nil_left_iff] at hfills
        rw [hfills]
        exact .nil
      · intro h
        rw [List.forall₂_nil_left_iff.mp h]
        exact ⟨[], .nil, .nil⟩
  | cons a first ih =>
      obtain ⟨ha, hfirst⟩ := known_cons.mp hfirst
      cases second with
      | nil => simp
      | cons b second =>
          obtain ⟨hb, hsecond⟩ := known_cons.mp hsecond
          rw [List.forall₂_cons, ← ih hfirst hsecond, ← exists_fills_iff_matches ha hb]
          constructor
          · rintro ⟨types, hfills, hfills'⟩
            cases hfills with
            | cons htype htypes =>
                obtain ⟨htype', htypes'⟩ := List.forall₂_cons.mp hfills'
                exact ⟨⟨_, htype, htype'⟩, _, htypes, htypes'⟩
          · rintro ⟨⟨type, htype, htype'⟩, types, htypes, htypes'⟩
            exact ⟨type :: types, .cons htype htypes, .cons htype' htypes'⟩

theorem exists_forall₂_fills
    {known : List ValueType} (hknown : Known known) :
    ∃ types, List.Forall₂ Fills types known := by
  have hmatches : List.Forall₂ ValueType.Matches known known :=
    List.forall₂_same.mpr fun _ _ => .inl rfl
  obtain ⟨types, htypes, -⟩ :=
    (exists_forall₂_fills_iff_matches hknown hknown).mpr hmatches
  exact ⟨types, htypes⟩

theorem numeric_of_forall₂_fills
    {types known : List ValueType} (h : List.Forall₂ Fills types known) :
    Numeric types := by
  induction h with
  | nil => exact numeric_nil
  | cons hfills _ ih => exact numeric_cons.mpr ⟨hfills.1, ih⟩

theorem Admits.numeric
    {effect : StackEffect} {types : List ValueType} (h : effect.Admits types) :
    Numeric types := by
  obtain ⟨below, top, rfl, hbelow, htop, -⟩ := h
  exact numeric_append.mpr ⟨hbelow, numeric_of_forall₂_fills htop⟩

theorem Admits.exists_append
    {effect : StackEffect} {types rest top : List ValueType} (h : effect.Admits types)
    (hresults : effect.results = rest ++ top) :
    ∃ first second, types = first ++ second ∧ second.length = top.length := by
  obtain ⟨below, filled, rfl, -, hfilled, -⟩ := h
  have hlength := hfilled.length_eq
  rw [hresults, List.length_append] at hlength
  refine ⟨below ++ filled.take rest.length, filled.drop rest.length, ?_, ?_⟩
  · rw [List.append_assoc, List.take_append_drop]
  · rw [List.length_drop, hlength, Nat.add_sub_cancel_left]

/-- The top of an admitted stack fills the top of the results, and the rest of it is
admitted by the rest. -/
theorem admits_append_iff
    {effect : StackEffect} {rest top first second : List ValueType}
    (hresults : effect.results = rest ++ top) (hlength : second.length = top.length) :
    effect.Admits (first ++ second) ↔
      { effect with results := rest }.Admits first ∧ List.Forall₂ Fills second top := by
  constructor
  · rintro ⟨below, filled, htypes, hbelow, hfilled, hpoly⟩
    rw [hresults] at hfilled
    have hrest := List.forall₂_take rest.length hfilled
    have htop := List.forall₂_drop rest.length hfilled
    rw [List.take_left] at hrest
    rw [List.drop_left] at htop
    rw [← List.take_append_drop rest.length filled, ← List.append_assoc] at htypes
    obtain ⟨rfl, rfl⟩ := List.append_inj' htypes (hlength.trans htop.length_eq.symm)
    exact ⟨⟨below, _, rfl, hbelow, hrest, hpoly⟩, htop⟩
  · rintro ⟨⟨below, filled, rfl, hbelow, hfilled, hpoly⟩, hsecond⟩
    refine ⟨below, filled ++ second, List.append_assoc .., hbelow, ?_, hpoly⟩
    rw [hresults]
    exact List.rel_append hfilled hsecond

theorem admits_iff_numeric
    {effect : StackEffect} {types : List ValueType} (hpoly : effect.polymorphic = true)
    (hresults : effect.results = []) :
    effect.Admits types ↔ Numeric types := by
  refine ⟨Admits.numeric, fun h => ⟨types, [], (List.append_nil _).symm, h,
    ?_, by simp [hpoly]⟩⟩
  rw [hresults]
  exact .nil

theorem Admits.length_eq
    {effect : StackEffect} {types : List ValueType} (h : effect.Admits types)
    (hpoly : effect.polymorphic = false) : types.length = effect.results.length := by
  obtain ⟨below, top, rfl, -, htop, hbelow⟩ := h
  rw [hbelow hpoly, List.nil_append, htop.length_eq]

/-- Operands are all on the stack, or the stack is the top of them. -/
theorem enough_or_short (stack params : List ValueType) :
    (∃ rest top, stack = rest ++ top ∧ top.length = params.length) ∨
      ∃ missing top, missing ≠ [] ∧ params = missing ++ top ∧
        stack.length = top.length := by
  rcases Nat.lt_or_ge stack.length params.length with h | h
  · refine .inr ⟨params.take (params.length - stack.length),
      params.drop (params.length - stack.length), ?_, (List.take_append_drop _ _).symm,
      ?_⟩
    · intro hmissing
      have := congrArg List.length hmissing
      simp only [List.length_take, List.length_nil] at this
      omega
    · rw [List.length_drop]
      omega
  · refine .inl ⟨stack.take (stack.length - params.length),
      stack.drop (stack.length - params.length), (List.take_append_drop _ _).symm, ?_⟩
    rw [List.length_drop]
    omega

/-- The image of the admitted stacks under an effect is what the composition admits;
wildcards of the effect are filled anew each time. -/
theorem exists_admits_iff_admitsAfter
    {effect : StackEffect} {params results types : List ValueType}
    (heffect : effect.IsClosed) (hparams : Known params) :
    (∃ below taken left, List.Forall₂ Fills taken params ∧
      List.Forall₂ Fills left results ∧
        effect.Admits (below ++ taken) ∧ types = below ++ left) ↔
      effect.AdmitsAfter (Context.fixed params results) types := by
  unfold AdmitsAfter
  rcases enough_or_short effect.results params with
    ⟨rest, top, hstack, hlength⟩ | ⟨missing, top, hmissing, rfl, hlength⟩
  · have htop : Known top := (known_append.mp (hstack ▸ heffect.results)).2
    simp only [andThen_fixed_of_enough hstack hlength, listsMatch_eq_true_iff,
      ← exists_forall₂_fills_iff_matches htop hparams]
    constructor
    · rintro ⟨below, taken, left, htaken, hleft, hadmits, rfl⟩
      obtain ⟨hbelow, hfills⟩ :=
        (admits_append_iff hstack (htaken.length_eq.trans hlength.symm)).mp hadmits
      exact ⟨_, ⟨⟨taken, hfills, htaken⟩, rfl⟩, heffect.params,
        (admits_append_iff rfl hleft.length_eq).mpr ⟨hbelow, hleft⟩⟩
    · rintro ⟨next, ⟨⟨taken, hfills, htaken⟩, rfl⟩, -, hadmits⟩
      obtain ⟨below, left, rfl, hlengthLeft⟩ := hadmits.exists_append rfl
      obtain ⟨hbelow, hleft⟩ := (admits_append_iff rfl hlengthLeft).mp hadmits
      exact ⟨below, taken, left, htaken, hleft,
        (admits_append_iff hstack hfills.length_eq).mpr ⟨hbelow, hfills⟩, rfl⟩
  · obtain ⟨hmissingKnown, htop⟩ := known_append.mp hparams
    have hstack : effect.results = [] ++ effect.results := rfl
    simp only [andThen_fixed_of_short hlength, listsMatch_eq_true_iff,
      ← exists_forall₂_fills_iff_matches heffect.results htop]
    cases hpoly : effect.polymorphic with
    | false =>
        constructor
        · rintro ⟨below, taken, left, htaken, -, hadmits, -⟩
          have hshort := hadmits.length_eq hpoly
          have htakenLength := htaken.length_eq
          have hpositive := List.length_pos_iff.mpr hmissing
          simp only [List.length_append] at hshort htakenLength
          omega
        · rintro ⟨next, ⟨-, rfl⟩, hnext, -⟩
          exact absurd (List.append_eq_nil_iff.mp hnext).1 hmissing
    | true =>
        constructor
        · rintro ⟨below, taken, left, htaken, hleft, hadmits, rfl⟩
          have htakenTop := List.forall₂_drop_append taken missing top htaken
          rw [← List.take_append_drop missing.length taken,
            ← List.append_assoc] at hadmits
          obtain ⟨hbelow, hfills⟩ :=
            (admits_append_iff hstack (htakenTop.length_eq.trans hlength.symm)).mp
              hadmits
          refine ⟨_, ⟨⟨_, hfills, htakenTop⟩, rfl⟩, heffect.params, ?_⟩
          refine (admits_append_iff (List.nil_append _).symm hleft.length_eq).mpr ⟨?_,
            hleft⟩
          exact (admits_iff_numeric rfl rfl).mpr (numeric_append.mp hbelow.numeric).1
        · rintro ⟨next, ⟨⟨takenTop, hfills, htakenTop⟩, rfl⟩, -, hadmits⟩
          obtain ⟨takenBelow, htakenBelow⟩ := exists_forall₂_fills hmissingKnown
          obtain ⟨below, left, rfl, hlengthLeft⟩ :=
            hadmits.exists_append (List.nil_append _).symm
          obtain ⟨hbelow, hleft⟩ :=
            (admits_append_iff (List.nil_append _).symm hlengthLeft).mp hadmits
          refine ⟨below, takenBelow ++ takenTop, left,
            List.rel_append htakenBelow htakenTop, hleft, ?_, rfl⟩
          rw [← List.append_assoc]
          refine (admits_append_iff hstack hfills.length_eq).mpr ⟨?_, hfills⟩
          exact (@admits_iff_numeric { effect with results := [] } _ hpoly rfl).mpr
            (numeric_append.mpr ⟨hbelow.numeric, numeric_of_forall₂_fills htakenBelow⟩)

/-- Number types are taken and left as they are. -/
theorem exists_admits_numeric_iff
    {effect : StackEffect} {params results types : List ValueType}
    (heffect : effect.IsClosed) (hparams : Numeric params)
    (hresults : Numeric results) :
    (∃ below, effect.Admits (below ++ params) ∧ types = below ++ results) ↔
      effect.AdmitsAfter (Context.fixed params results) types := by
  rw [← exists_admits_iff_admitsAfter heffect (known_of_numeric hparams)]
  simp only [forall₂_fills_numeric_iff hparams, forall₂_fills_numeric_iff hresults]
  constructor
  · rintro ⟨below, hadmits, htypes⟩
    exact ⟨below, params, results, rfl, rfl, hadmits, htypes⟩
  · rintro ⟨below, _, _, rfl, rfl, hadmits, htypes⟩
    exact ⟨below, hadmits, htypes⟩

theorem typeAt_dropTop
    (effect : StackEffect) (depth : Nat) :
    effect.dropTop.typeAt depth = effect.typeAt (depth + 1) := by
  simp only [typeAt, dropTop, ← List.tail_reverse, List.getElem?_tail]

/-- The top of an admitted stack fills the top of the results, if there is one. -/
theorem admits_concat_iff
    {effect : StackEffect} {types : List ValueType} {type : ValueType} :
    effect.Admits (types ++ [type]) ↔
      effect.dropTop.Admits types ∧ Fills type (effect.typeAt 0) ∧
        (effect.results = [] → effect.polymorphic = true) := by
  rcases List.eq_nil_or_concat effect.results with hresults | ⟨rest, last, hresults⟩
  · have hdrop : effect.dropTop = { effect with results := [] } := by
      simp [dropTop, hresults]
    have htop : effect.typeAt 0 = .any := by simp [typeAt, hresults]
    rw [hdrop, htop]
    cases hpoly : effect.polymorphic with
    | false =>
        constructor
        · intro h
          simpa [hresults] using h.length_eq hpoly
        · intro h
          simpa using h.2.2 hresults
    | true =>
        rw [admits_iff_numeric hpoly hresults, admits_iff_numeric rfl rfl]
        simp [Fills, hresults]
  · rw [List.concat_eq_append] at hresults
    have hdrop : effect.dropTop = { effect with results := rest } := by
      simp [dropTop, hresults]
    have htop : effect.typeAt 0 = last := by simp [typeAt, hresults]
    have hlength : [type].length = [last].length := rfl
    rw [hdrop, htop, admits_append_iff hresults hlength]
    simp [hresults]

theorem known_typeAt
    {effect : StackEffect} (heffect : effect.IsClosed) (depth : Nat) :
    (effect.typeAt depth).IsNumber ∨ effect.typeAt depth = .any := by
  unfold typeAt
  cases htype : effect.results.reverse[depth]? with
  | none => exact .inr rfl
  | some type =>
      exact heffect.results type (List.mem_reverse.mp (List.mem_of_getElem? htype))

/-- Dropping an operand of any type is the effect with the type at the top. -/
theorem exists_admits_drop_iff
    {effect : StackEffect} {types : List ValueType} (heffect : effect.IsClosed) :
    (∃ below type, type.IsNumber ∧ effect.Admits (below ++ [type]) ∧ types = below) ↔
      effect.AdmitsAfter (Context.fixed [effect.typeAt 0] []) types := by
  have hknown : Known [effect.typeAt 0] := by simpa [Known] using known_typeAt heffect 0
  rw [← exists_admits_iff_admitsAfter heffect hknown]
  constructor
  · rintro ⟨below, type, -, hadmits, rfl⟩
    have hfills := (admits_concat_iff.mp hadmits).2.1
    exact ⟨_, [type], [], .cons hfills .nil, .nil, hadmits, (List.append_nil _).symm⟩
  · rintro ⟨below, taken, left, htaken, hleft, hadmits, htypes⟩
    obtain ⟨type, rest, hfills, hrest, rfl⟩ := List.forall₂_cons_right_iff.mp htaken
    rw [List.forall₂_nil_right_iff.mp hrest] at hadmits
    rw [List.forall₂_nil_right_iff.mp hleft, List.append_nil] at htypes
    exact ⟨below, type, hfills.1, hadmits, htypes⟩

def selected (effect : StackEffect) : ValueType :=
  if effect.typeAt 1 = .any then effect.typeAt 2 else effect.typeAt 1

theorem admits_select_iff
    {effect : StackEffect} {below : List ValueType}
    {first second condition : ValueType} :
    effect.Admits (below ++ [first, second, condition]) ↔
      (effect.dropTop.dropTop.dropTop.Admits below ∧
        (effect.dropTop.dropTop.results = [] → effect.polymorphic = true) ∧
        (effect.dropTop.results = [] → effect.polymorphic = true) ∧
        (effect.results = [] → effect.polymorphic = true)) ∧
      Fills first (effect.typeAt 2) ∧ Fills second (effect.typeAt 1) ∧
        Fills condition (effect.typeAt 0) := by
  have hsplit : below ++ [first, second, condition] =
      ((below ++ [first]) ++ [second]) ++ [condition] := by
    simp
  rw [hsplit, admits_concat_iff, admits_concat_iff, admits_concat_iff, typeAt_dropTop,
    typeAt_dropTop, typeAt_dropTop]
  simp only [dropTop]
  tauto

/-- Selecting between operands of one open type is the effect with the first type that
is known. -/
theorem exists_admits_select_iff
    {effect : StackEffect} {types : List ValueType} (heffect : effect.IsClosed) :
    (∃ below type, type.IsNumber ∧ effect.Admits (below ++ [type, type, .i32]) ∧
        types = below ++ [type]) ↔
      effect.AdmitsAfter
        (Context.fixed [effect.selected, effect.selected, .i32]
          [effect.selected]) types := by
  have hselected : effect.selected.IsNumber ∨ effect.selected = .any := by
    unfold selected
    split <;> exact known_typeAt heffect _
  have hknown : Known [effect.selected, effect.selected, .i32] := by
    simp [Known, hselected]
  rw [← exists_admits_iff_admitsAfter heffect hknown]
  constructor
  · rintro ⟨below, type, htype, hadmits, rfl⟩
    obtain ⟨-, hfirst, hsecond, -⟩ := admits_select_iff.mp hadmits
    have hfills : Fills type effect.selected := by
      unfold selected
      split
      · exact hfirst
      · exact hsecond
    exact ⟨below, [type, type, .i32], [type],
      .cons hfills (.cons hfills (.cons ⟨trivial, .inl rfl⟩ .nil)), .cons hfills .nil,
      hadmits, rfl⟩
  · rintro ⟨below, taken, left, htaken, hleft, hadmits, rfl⟩
    obtain ⟨first, _, hfirst, htail, rfl⟩ := List.forall₂_cons_right_iff.mp htaken
    obtain ⟨second, _, hsecond, hlast, rfl⟩ := List.forall₂_cons_right_iff.mp htail
    obtain ⟨condition, _, hcondition, hnil, rfl⟩ := List.forall₂_cons_right_iff.mp hlast
    obtain ⟨type, _, htype, hnone, rfl⟩ := List.forall₂_cons_right_iff.mp hleft
    obtain rfl := List.forall₂_nil_right_iff.mp hnil
    obtain rfl := List.forall₂_nil_right_iff.mp hnone
    obtain rfl := hcondition.eq_of_isNumber trivial
    refine ⟨below, type, htype.1, ?_, rfl⟩
    -- A wildcard that was selected leaves both operands open, so they may be changed to
    -- the result.
    obtain ⟨hbelow, hfirst', hsecond', hcondition'⟩ := admits_select_iff.mp hadmits
    rcases hselected with hnumber | hany
    · obtain rfl := hfirst.eq_of_isNumber hnumber
      obtain rfl := hsecond.eq_of_isNumber hnumber
      obtain rfl := htype.eq_of_isNumber hnumber
      exact hadmits
    · obtain ⟨hone, htwo⟩ : effect.typeAt 1 = .any ∧ effect.typeAt 2 = .any := by
        unfold selected at hany
        split at hany
        · exact ⟨‹_›, hany⟩
        · exact absurd hany ‹_›
      refine admits_select_iff.mpr ⟨hbelow, ⟨htype.1, .inr htwo⟩, ⟨htype.1, .inr hone⟩,
        hcondition'⟩

/-- What one effect followed by another takes, leaves and is. -/
theorem andThen_eq_ok
    {first second next : StackEffect} (h : first.andThen second = .ok next) :
    (∃ missing, next.params = missing ++ first.params) ∧
      (∃ kept, (∀ type ∈ kept, type ∈ first.results) ∧
        next.results = kept ++ second.results) ∧
      next.polymorphic = (first.polymorphic || second.polymorphic) := by
  unfold andThen at h
  split at h
  · obtain rfl := Except.ok.inj h
    refine ⟨?_, ?_, rfl⟩
    · dsimp only
      split
      · exact ⟨[], rfl⟩
      · exact ⟨_, rfl⟩
    · dsimp only
      split
      · exact ⟨[], by simp, rfl⟩
      · exact ⟨_, fun type htype => List.mem_of_mem_take htype, rfl⟩
  · cases h

theorem params_of_andThen
    {first second next : StackEffect} (h : first.andThen second = .ok next)
    (hnext : next.params = []) : first.params = [] := by
  obtain ⟨⟨missing, hparams⟩, -⟩ := andThen_eq_ok h
  rw [hnext] at hparams
  exact (List.append_eq_nil_iff.mp hparams.symm).2

theorem isClosed_of_andThen
    {first second next : StackEffect} (h : first.andThen second = .ok next)
    (hfirst : first.IsClosed) (hsecond : Known second.results)
    (hnext : next.params = []) :
    next.IsClosed := by
  obtain ⟨-, ⟨kept, hkept, hresults⟩, -⟩ := andThen_eq_ok h
  refine ⟨hnext, ?_⟩
  rw [hresults, known_append]
  exact ⟨fun type htype => hfirst.results type (hkept type htype), hsecond⟩

theorem exists_admits
    {effect : StackEffect} (heffect : effect.IsClosed) :
    ∃ types, effect.Admits types := by
  obtain ⟨types, htypes⟩ := exists_forall₂_fills heffect.results
  exact ⟨types, [], types, rfl, numeric_nil, htypes, fun _ => rfl⟩

theorem andThen_leaving_eq_ok_iff
    {effect next : StackEffect} {params : List ValueType} :
    effect.andThen (Context.leaving params) = .ok next ↔
      ∃ fixed, effect.andThen (Context.fixed params []) = .ok fixed ∧
        next = { fixed with results := [], polymorphic := true } := by
  by_cases hmatch : prefixesMatch effect.results.reverse params.reverse = true
  · simp only [andThen, Context.leaving, Context.fixed, hmatch, Except.ok.injEq,
      exists_eq_left', Bool.or_true, ↓reduceIte]
    exact eq_comm
  · simp [andThen, Context.leaving, Context.fixed, hmatch]

/-- A transfer of control takes any operands below its own and leaves any stack. -/
theorem exists_admits_leaving_iff
    {effect : StackEffect} {params types : List ValueType} (heffect : effect.IsClosed)
    (hparams : Numeric params) :
    (∃ below taken left, Numeric taken ∧ Numeric left ∧
      effect.Admits (below ++ (taken ++ params)) ∧
        types = below ++ left) ↔
      effect.AdmitsAfter (Context.leaving params) types := by
  constructor
  · rintro ⟨below, taken, left, htaken, hleft, hadmits, rfl⟩
    have hbelow : Numeric below := (numeric_append.mp hadmits.numeric).1
    rw [← List.append_assoc] at hadmits
    obtain ⟨fixed, hfixed, hnil, -⟩ :=
      (exists_admits_numeric_iff heffect hparams numeric_nil).mp
      ⟨_, hadmits, (List.append_nil _).symm⟩
    exact ⟨_, andThen_leaving_eq_ok_iff.mpr ⟨fixed, hfixed, rfl⟩, hnil,
      (admits_iff_numeric rfl rfl).mpr (numeric_append.mpr ⟨hbelow, hleft⟩)⟩
  · rintro ⟨next, hnext, hnil, hadmits⟩
    obtain ⟨fixed, hfixed, rfl⟩ := andThen_leaving_eq_ok_iff.mp hnext
    obtain ⟨stack, hstack⟩ :=
      exists_admits (isClosed_of_andThen hfixed heffect
        (by simp [Known, Context.fixed]) hnil)
    obtain ⟨below, hbelow, -⟩ :=
      (exists_admits_numeric_iff heffect hparams numeric_nil).mpr
      ⟨fixed, hfixed, hnil, hstack⟩
    exact ⟨[], below, types, (numeric_append.mp hbelow.numeric).1, hadmits.numeric,
      hbelow, rfl⟩

theorem exists_admits_append_iff
    {effect : StackEffect} {expected : List ValueType} (heffect : effect.IsClosed)
    (hexpected : Numeric expected) (hpoly : effect.polymorphic = true) :
    (∃ surplus, effect.Admits (surplus ++ expected)) ↔
      listsMatch
        (effect.results.drop (effect.results.length - Nat.min effect.results.length
          expected.length))
        (expected.drop (expected.length - Nat.min effect.results.length
          expected.length)) = true := by
  rw [listsMatch_eq_true_iff]
  rcases enough_or_short effect.results expected with
    ⟨rest, top, hstack, hlength⟩ | ⟨missing, top, -, rfl, hlength⟩
  · have hmin : Nat.min effect.results.length expected.length = top.length := by
      rw [hstack, List.length_append, ← hlength]
      exact Nat.min_eq_right (Nat.le_add_left _ _)
    have hrest : Known rest := (known_append.mp (hstack ▸ heffect.results)).1
    have htop : Known top := (known_append.mp (hstack ▸ heffect.results)).2
    rw [hmin, hlength, Nat.sub_self, List.drop_zero, ← hlength, hstack,
      List.length_append, Nat.add_sub_cancel, List.drop_left,
      ← exists_forall₂_fills_iff_matches htop (known_of_numeric hexpected)]
    simp only [admits_append_iff hstack hlength.symm,
      forall₂_fills_numeric_iff hexpected]
    obtain ⟨surplus, hsurplus⟩ := @exists_admits { effect with
        results := rest } ⟨heffect.params, hrest⟩
    constructor
    · rintro ⟨_, -, hfills⟩
      exact ⟨expected, hfills, rfl⟩
    · rintro ⟨_, hfills, rfl⟩
      exact ⟨surplus, hsurplus, hfills⟩
  · obtain ⟨hmissing, htop⟩ := numeric_append.mp hexpected
    have hmin : Nat.min effect.results.length (missing ++ top).length = top.length := by
      rw [List.length_append, hlength]
      exact Nat.min_eq_left (Nat.le_add_left _ _)
    have hstack : effect.results = [] ++ effect.results := rfl
    rw [hmin, hlength, Nat.sub_self, List.drop_zero, List.length_append,
      Nat.add_sub_cancel, List.drop_left,
      ← exists_forall₂_fills_iff_matches heffect.results (known_of_numeric htop)]
    simp only [← List.append_assoc, admits_append_iff hstack hlength.symm,
      forall₂_fills_numeric_iff htop,
      @admits_iff_numeric { effect with results := [] } _ hpoly rfl]
    constructor
    · rintro ⟨_, -, hfills⟩
      exact ⟨top, hfills, rfl⟩
    · rintro ⟨_, hfills, rfl⟩
      exact ⟨[], hmissing, hfills⟩

/-- The end of a sequence is accepted when some admitted stack ends with the expected
types, with a surplus below them only after a transfer of control. -/
theorem checkResults_eq_ok_iff
    {effect : StackEffect} {expected : List ValueType} (heffect : effect.IsClosed)
    (hexpected : Numeric expected) :
    effect.checkResults expected = .ok () ↔
      ∃ surplus, effect.Admits (surplus ++ expected) ∧
        (surplus = [] ∨ effect.polymorphic = true) := by
  have hcheck : effect.checkResults expected = .ok () ↔
      (if effect.polymorphic then
        listsMatch
          (effect.results.drop (effect.results.length - Nat.min effect.results.length
            expected.length))
          (expected.drop (expected.length - Nat.min effect.results.length
            expected.length))
        else listsMatch effect.results expected) = true := by
    simp only [checkResults, heffect.params, ne_eq, not_true_eq_false, ↓reduceIte]
    split <;> simp_all
  rw [hcheck]
  cases hpoly : effect.polymorphic with
  | true =>
      rw [if_pos rfl, ← exists_admits_append_iff heffect hexpected hpoly]
      simp
  | false =>
      rw [if_neg Bool.false_ne_true, listsMatch_eq_true_iff,
        ← exists_forall₂_fills_iff_matches heffect.results (known_of_numeric hexpected)]
      simp only [forall₂_fills_numeric_iff hexpected, Bool.false_eq_true, or_false]
      constructor
      · rintro ⟨_, hfills, rfl⟩
        exact ⟨[], ⟨[], _, rfl, numeric_nil, hfills, fun _ => rfl⟩, rfl⟩
      · rintro ⟨_, ⟨below, top, htypes, -, hfills, hbelow⟩, rfl⟩
        rw [hbelow hpoly, List.nil_append, List.nil_append] at htypes
        exact ⟨expected, htypes ▸ hfills, rfl⟩

end StackEffect
end WebAssembly
