import Mathlib.Data.List.Induction
import WebAssembly.Proofs.Checker

/-!
# Composition of stack effects

Two effects compose if the results of the first match the operands of the second as far
as both reach.  Neither this condition nor what is taken and left in the end depends on
how a series of effects is grouped.  Hence a sequence can be checked on its own: after
any other instructions it has the effect that it has by itself.  Only `select` is
excepted, since its type is read off from what comes before it.
-/

namespace WebAssembly
namespace StackEffect

/-! ## Grouping of effects -/

/-- What is left of a stack after as many entries as the second list has were taken from
its top. -/
def remainder (stack taken : List ValueType) : List ValueType :=
  stack.take (stack.length - taken.length)

/-- Whether two stacks match entry by entry, from the top down as far as both reach. -/
def topsMatch (first second : List ValueType) : Bool :=
  prefixesMatch first.reverse second.reverse

/-- What one effect followed by another takes and leaves, whether or not they match. -/
def join (first second : StackEffect) : StackEffect where
  params :=
    if first.polymorphic then first.params
    else remainder second.params first.results ++ first.params
  results :=
    if second.polymorphic then second.results
    else remainder first.results second.params ++ second.results
  polymorphic := first.polymorphic || second.polymorphic

theorem andThen_eq_ok_iff
    {first second effect : StackEffect} :
    first.andThen second = .ok effect ↔
      topsMatch first.results second.params = true ∧ first.join second = effect := by
  have hjoin : first.andThen second =
      if topsMatch first.results second.params then .ok (first.join second)
      else .error (.operands second.params first.results) := rfl
  rw [hjoin]
  split <;> simp_all

@[simp] theorem remainder_nil (stack : List ValueType) :
    remainder stack [] = stack := by
  simp [remainder]

@[simp] theorem nil_remainder (taken : List ValueType) : remainder [] taken = [] := by
  simp [remainder]

/-- Entries are taken from the upper part of a stack first, and the rest of them from
the lower part. -/
theorem append_remainder (lower upper taken : List ValueType) :
    remainder (lower ++ upper) taken = remainder lower (remainder taken upper) ++
      remainder upper taken := by
  simp only [remainder, List.take_append, List.length_append, List.length_take]
  congr 1
  · rw [List.take_eq_take_iff]
    omega
  · congr 1
    omega

/-- The upper of two lists is taken first. -/
theorem remainder_append (stack lower upper : List ValueType) :
    remainder stack (lower ++ upper) = remainder (remainder stack upper) lower := by
  simp only [remainder, List.take_take, List.length_append, List.length_take]
  congr 1
  omega

theorem prefixesMatch_comm (first second : List ValueType) :
    prefixesMatch first second = prefixesMatch second first := by
  induction first generalizing second with
  | nil => cases second <;> rfl
  | cons a first ih =>
      cases second with
      | nil => rfl
      | cons b second =>
          have hmatches : a.Matches b ↔ b.Matches a := by
            unfold ValueType.Matches
            tauto
          simp [prefixesMatch, ih, hmatches]

theorem topsMatch_comm (first second : List ValueType) :
    topsMatch first second = topsMatch second first :=
  prefixesMatch_comm _ _

@[simp] theorem topsMatch_nil (stack : List ValueType) : topsMatch stack [] = true := by
  cases h : stack.reverse <;> simp [topsMatch, prefixesMatch, h]

@[simp] theorem nil_topsMatch (stack : List ValueType) : topsMatch [] stack = true := by
  rw [topsMatch_comm, topsMatch_nil]

theorem append_prefixesMatch (first more second : List ValueType) :
    prefixesMatch (first ++ more) second =
      (prefixesMatch first second &&
        prefixesMatch more (second.drop first.length)) := by
  induction first generalizing second with
  | nil => simp [prefixesMatch]
  | cons a first ih =>
      cases second with
      | nil => cases more <;> simp [prefixesMatch]
      | cons b second => simp [prefixesMatch, ih, Bool.and_assoc]

/-- The upper part of a stack is compared first, and the lower part with what that
leaves. -/
theorem append_topsMatch (lower upper second : List ValueType) :
    topsMatch (lower ++ upper) second = (topsMatch upper second &&
      topsMatch lower (remainder second upper)) := by
  have hdrop : (remainder second upper).reverse =
      second.reverse.drop upper.reverse.length := by
    rw [remainder, List.reverse_take, List.length_reverse]
    rcases Nat.le_total second.length upper.length with h | h
    · rw [List.drop_eq_nil_of_le (by simp; omega),
        List.drop_eq_nil_of_le (by simpa using h)]
    · rw [Nat.sub_sub_self h]
  rw [topsMatch, topsMatch, topsMatch, List.reverse_append, append_prefixesMatch, hdrop]

theorem topsMatch_append (first lower upper : List ValueType) :
    topsMatch first (lower ++ upper) = (topsMatch first upper &&
      topsMatch (remainder first upper) lower) := by
  rw [topsMatch_comm, append_topsMatch, topsMatch_comm upper, topsMatch_comm lower]

theorem join_assoc (a b c : StackEffect) : (a.join b).join c = a.join (b.join c) := by
  cases hb : b.polymorphic with
  | true => simp [join, hb]
  | false =>
      have hparams : remainder c.params (remainder a.results b.params ++ b.results) ++
            (remainder b.params a.results ++ a.params) =
          remainder (remainder c.params b.results ++ b.params) a.results ++
            a.params := by
        rw [remainder_append, append_remainder, List.append_assoc]
      have hresults : remainder (remainder a.results b.params ++ b.results) c.params ++
            c.results =
          remainder a.results (remainder c.params b.results ++ b.params) ++
            (remainder b.results c.params ++ c.results) := by
        rw [remainder_append, append_remainder, List.append_assoc]
      cases ha : a.polymorphic <;> cases hc : c.polymorphic <;> simp [join, ha, hb, hc,
        hparams, hresults]

/-- The results of two effects and the operands of a third one match in either
grouping. -/
theorem topsMatch_join (a b c : StackEffect) :
    (topsMatch a.results b.params && topsMatch (a.join b).results c.params) =
      (topsMatch b.results c.params && topsMatch a.results (b.join c).params) := by
  cases hb : b.polymorphic with
  | true => simp [join, hb, Bool.and_comm]
  | false =>
      have hleft : (a.join b).results = remainder a.results b.params ++ b.results := by
        simp [join, hb]
      have hright : (b.join c).params = remainder c.params b.results ++ b.params := by
        simp [join, hb]
      rw [hleft, hright, append_topsMatch, topsMatch_append]
      exact Bool.and_left_comm _ _ _

/-- Effects may be grouped either way: one grouping composes if the other does, and to
the same effect. -/
theorem andThen_assoc
    {a b c effect : StackEffect} :
    (∃ ab, a.andThen b = .ok ab ∧ ab.andThen c = .ok effect) ↔
      ∃ bc, b.andThen c = .ok bc ∧ a.andThen bc = .ok effect := by
  have hmatch := topsMatch_join a b c
  rw [Bool.eq_iff_iff, Bool.and_eq_true, Bool.and_eq_true] at hmatch
  simp only [andThen_eq_ok_iff]
  constructor
  · rintro ⟨_, ⟨hab, rfl⟩, hc, rfl⟩
    obtain ⟨hbc, ha⟩ := hmatch.mp ⟨hab, hc⟩
    exact ⟨_, ⟨hbc, rfl⟩, ha, (join_assoc a b c).symm⟩
  · rintro ⟨_, ⟨hbc, rfl⟩, ha, rfl⟩
    obtain ⟨hab, hc⟩ := hmatch.mpr ⟨hbc, ha⟩
    exact ⟨_, ⟨hab, rfl⟩, hc, join_assoc a b c⟩

theorem empty_andThen (effect : StackEffect) : empty.andThen effect = .ok effect := by
  rw [andThen_eq_ok_iff]
  refine ⟨nil_topsMatch _, ?_⟩
  obtain ⟨params, results, polymorphic⟩ := effect
  simp [join, empty]

theorem andThen_empty (effect : StackEffect) : effect.andThen empty = .ok effect := by
  rw [andThen_eq_ok_iff]
  refine ⟨topsMatch_nil _, ?_⟩
  obtain ⟨params, results, polymorphic⟩ := effect
  simp [join, empty]

/-- Composition is associative wherever it is defined, which it is in both groupings or
in neither, and the effect without operands and results is neutral on both sides. -/
theorem effects_form_partial_monoid (a b c : StackEffect) :
    (∀ effect, (∃ ab, a.andThen b = .ok ab ∧ ab.andThen c = .ok effect) ↔
        ∃ bc, b.andThen c = .ok bc ∧ a.andThen bc = .ok effect) ∧
      empty.andThen a = .ok a ∧ a.andThen empty = .ok a :=
  ⟨fun _ => andThen_assoc, empty_andThen a, andThen_empty a⟩

/-! ## Dropped operands -/

/-- Dropping the top entry has the same effect whether its type is given or left
open. -/
theorem andThen_drop_iff
    {effect next : StackEffect} {type : ValueType}
    (htype : type = .any ∨ type = effect.typeAt 0) :
    effect.andThen (Context.fixed [type] []) = .ok next ↔
      effect.andThen (Context.fixed [.any] []) = .ok next := by
  rcases List.eq_nil_or_concat effect.results with hresults | ⟨rest, last, hresults⟩
  · have htop : effect.typeAt 0 = .any := by simp [typeAt, hresults]
    obtain rfl : type = .any := htype.elim id fun h => h.trans htop
    rfl
  · rw [List.concat_eq_append] at hresults
    have htop : effect.typeAt 0 = last := by simp [typeAt, hresults]
    rw [htop] at htype
    have hmatch : listsMatch [last] [type] = true ∧
        listsMatch [last] [.any] = true := by
      rcases htype with rfl | rfl <;> simp [listsMatch, ValueType.Matches]
    have hlength (known : ValueType) : [last].length = [known].length := rfl
    rw [andThen_fixed_of_enough hresults (hlength type),
      andThen_fixed_of_enough hresults (hlength .any)]
    simp only [hmatch]

/-- The top of the second effect is the top of both together, if it is known at all. -/
theorem typeAt_of_andThen
    {first second next : StackEffect} (h : first.andThen second = .ok next) :
    second.typeAt 0 = .any ∨ second.typeAt 0 = next.typeAt 0 := by
  obtain ⟨-, ⟨kept, -, hnext⟩, -⟩ := andThen_eq_ok h
  rcases List.eq_nil_or_concat second.results with hresults | ⟨rest, last, hresults⟩
  · exact .inl (by simp [typeAt, hresults])
  · exact .inr (by simp [typeAt, hnext, hresults])

end StackEffect

namespace Context

variable {c : Context}

/-! ## Sequences -/

/-- One more instruction turns the running effect into the next one. -/
def Steps (c : Context) (running : StackEffect) (instr : Instr)
    (next : StackEffect) : Prop :=
  ∃ effect, c.effect running instr = .ok effect ∧ running.andThen effect = .ok next

theorem effect_eq_of_ne
    {instr : Instr} (hdrop : instr ≠ .drop) (hselect : instr ≠ .select)
    (running running' : StackEffect) :
    c.effect running instr = c.effect running' instr := by
  cases instr with
  | drop => exact absurd rfl hdrop
  | select => exact absurd rfl hselect
  | _ => rfl

/-- The effect that an instruction has after a part of a sequence serves after the whole
of it. -/
theorem steps_iff_of_andThen
    {first second middle next : StackEffect} {instr : Instr} (hselect : instr ≠ .select)
    (h : first.andThen second = .ok middle) :
    c.Steps middle instr next ↔
      ∃ effect, c.effect second instr = .ok effect ∧
        middle.andThen effect = .ok next := by
  by_cases hdrop : instr = .drop
  · subst hdrop
    simp only [Steps, Context.effect, Except.ok.injEq, exists_eq_left']
    rw [StackEffect.andThen_drop_iff (.inr rfl),
      StackEffect.andThen_drop_iff (StackEffect.typeAt_of_andThen h)]
  · rw [Steps, effect_eq_of_ne hdrop hselect middle second]

theorem exists_steps_iff
    {first second next : StackEffect} {instr : Instr} (hselect : instr ≠ .select) :
    (∃ middle, first.andThen second = .ok middle ∧ c.Steps middle instr next) ↔
      ∃ effect, c.Steps second instr effect ∧ first.andThen effect = .ok next := by
  constructor
  · rintro ⟨middle, hmiddle, hsteps⟩
    obtain ⟨last, hlast, hnext⟩ := (steps_iff_of_andThen hselect hmiddle).mp hsteps
    obtain ⟨effect, heffect, hnext⟩ :=
      StackEffect.andThen_assoc.mp ⟨middle, hmiddle, hnext⟩
    exact ⟨effect, ⟨last, hlast, heffect⟩, hnext⟩
  · rintro ⟨effect, ⟨last, hlast, heffect⟩, hnext⟩
    obtain ⟨middle, hmiddle, hnext⟩ :=
      StackEffect.andThen_assoc.mpr ⟨effect, heffect, hnext⟩
    exact ⟨middle, hmiddle, (steps_iff_of_andThen hselect hmiddle).mpr ⟨last,
      hlast, hnext⟩⟩

theorem sequenceEffectFrom_cons_eq_ok_iff
    {running next : StackEffect} {instr : Instr} {rest : List Instr} :
    c.sequenceEffectFrom running (instr :: rest) = .ok next ↔
      ∃ middle, c.Steps running instr middle ∧
        c.sequenceEffectFrom middle rest = .ok next := by
  simp only [sequenceEffectFrom, Attempt.bind_eq_ok, Attempt.ofExcept_eq_ok, Steps]
  constructor
  · rintro ⟨effect, heffect, middle, hmiddle, hrest⟩
    exact ⟨middle, ⟨effect, heffect, hmiddle⟩, hrest⟩
  · rintro ⟨middle, ⟨effect, heffect, hmiddle⟩, hrest⟩
    exact ⟨effect, heffect, middle, hmiddle, hrest⟩

theorem sequenceEffectFrom_singleton_eq_ok_iff
    {running next : StackEffect} {instr : Instr} :
    c.sequenceEffectFrom running [instr] = .ok next ↔ c.Steps running instr next := by
  rw [sequenceEffectFrom_cons_eq_ok_iff]
  simp [sequenceEffectFrom]

theorem sequenceEffectFrom_append_eq_ok_iff
    {running next : StackEffect} {first second : List Instr} :
    c.sequenceEffectFrom running (first ++ second) = .ok next ↔
      ∃ middle, c.sequenceEffectFrom running first = .ok middle ∧
        c.sequenceEffectFrom middle second = .ok next := by
  induction first generalizing running with
  | nil => simp [sequenceEffectFrom]
  | cons instr rest ih =>
      simp only [List.cons_append, sequenceEffectFrom_cons_eq_ok_iff, ih]
      constructor
      · rintro ⟨running', hsteps, middle, hrest, hsecond⟩
        exact ⟨middle, ⟨running', hsteps, hrest⟩, hsecond⟩
      · rintro ⟨middle, ⟨running', hsteps, hrest⟩, hsecond⟩
        exact ⟨running', hsteps, middle, hrest, hsecond⟩

/-- The check that locates faults and the one that does not give the same effect. -/
theorem accumulate_eq_ok_iff
    {running next : StackEffect} {position : Nat} {body : List Instr} :
    c.accumulate running position body = .ok next ↔
      c.sequenceEffectFrom running body = .ok next := by
  induction body generalizing running position with
  | nil => rfl
  | cons instr rest ih =>
      simp only [accumulate_cons_eq_ok_iff, sequenceEffectFrom_cons_eq_ok_iff, ih,
        Steps]
      constructor
      · rintro ⟨effect, middle, heffect, hmiddle, hrest⟩
        exact ⟨middle, ⟨effect, heffect, hmiddle⟩, hrest⟩
      · rintro ⟨middle, ⟨effect, heffect, hmiddle⟩, hrest⟩
        exact ⟨effect, middle, heffect, hmiddle, hrest⟩

/-- After instructions of any effect, a sequence has the effect that it has on its
own. -/
theorem sequenceEffectFrom_eq_ok_iff
    {running next : StackEffect} {body : List Instr} (hbody : .select ∉ body) :
    c.sequenceEffectFrom running body = .ok next ↔
      ∃ effect, c.sequenceEffect body = .ok effect ∧
        running.andThen effect = .ok next := by
  -- The induction takes instructions from the end, so that the effects before the last
  -- one can be regrouped.
  induction body using List.reverseRecOn generalizing next with
  | nil =>
      simp only [sequenceEffect, sequenceEffectFrom, Except.ok.injEq, exists_eq_left',
        StackEffect.andThen_empty]
  | append_singleton body instr ih =>
      have hinstr : instr ≠ .select := by
        rintro rfl
        simp at hbody
      simp only [sequenceEffect, sequenceEffectFrom_append_eq_ok_iff,
        sequenceEffectFrom_singleton_eq_ok_iff]
      simp only [ih (fun h => hbody (List.mem_append_left _ h)), sequenceEffect]
      constructor
      · rintro ⟨middle, ⟨effect, heffect, hmiddle⟩, hsteps⟩
        obtain ⟨whole, hwhole, hnext⟩ :=
          (exists_steps_iff hinstr).mp ⟨middle, hmiddle, hsteps⟩
        exact ⟨whole, ⟨effect, heffect, hwhole⟩, hnext⟩
      · rintro ⟨whole, ⟨effect, heffect, hwhole⟩, hnext⟩
        obtain ⟨middle, hmiddle, hsteps⟩ :=
          (exists_steps_iff hinstr).mpr ⟨whole, hwhole, hnext⟩
        exact ⟨middle, ⟨effect, heffect, hmiddle⟩, hsteps⟩

/-- A sequence is checked by parts: after instructions of any effect it has the effect
that it has on its own, its effect is that of a first part followed by that of the rest,
and it turns operands into results if its effect does. -/
theorem sequences_compose
    (c : Context) (body : List Instr) (hbody : .select ∉ body) :
    (∀ running next, c.sequenceEffectFrom running body = .ok next ↔
        ∃ effect, c.sequenceEffect body = .ok effect ∧
          running.andThen effect = .ok next) ∧
      (∀ running position next, c.accumulate running position body = .ok next ↔
        ∃ effect, c.sequenceEffect body = .ok effect ∧
          running.andThen effect = .ok next) ∧
      (∀ first second, body = first ++ second → ∀ next,
        c.sequenceEffect body = .ok next ↔ ∃ effect effect',
          c.sequenceEffect first = .ok effect ∧ c.sequenceEffect second = .ok effect' ∧
          effect.andThen effect' = .ok next) ∧
      ∀ params results, c.checkSequence params results body = .ok () ↔
        ∃ effect next, c.sequenceEffect body = .ok effect ∧
          StackEffect.andThen { results := params } effect = .ok next ∧
          next.checkResults results = .ok () := by
  refine ⟨fun _ _ => sequenceEffectFrom_eq_ok_iff hbody, fun _ _ _ => ?_, ?_,
    fun params results => ?_⟩
  · rw [accumulate_eq_ok_iff, sequenceEffectFrom_eq_ok_iff hbody]
  · rintro first second rfl next
    have hsecond : .select ∉ second := fun h => hbody (List.mem_append_right _ h)
    rw [sequenceEffect, sequenceEffectFrom_append_eq_ok_iff]
    simp only [sequenceEffectFrom_eq_ok_iff hsecond]
    constructor
    · rintro ⟨effect, heffect, effect', heffect', hnext⟩
      exact ⟨effect, effect', heffect, heffect', hnext⟩
    · rintro ⟨effect, effect', heffect, heffect', hnext⟩
      exact ⟨effect, heffect, effect', heffect', hnext⟩
  · simp only [checkSequence, Attempt.bind_eq_ok, Attempt.ofExcept_eq_ok,
      accumulate_eq_ok_iff, sequenceEffectFrom_eq_ok_iff hbody]
    constructor
    · rintro ⟨next, ⟨effect, heffect, hnext⟩, hresults⟩
      exact ⟨effect, next, heffect, hnext, hresults⟩
    · rintro ⟨effect, next, heffect, hnext, hresults⟩
      exact ⟨next, ⟨effect, heffect, hnext⟩, hresults⟩

/-- On its own the sequence drops an operand of open type, which is an `i32` where the
sequence stands; the block may select. -/
theorem open_drop_composes :
    let c : Context := { locals := [.i64], labels := [[.f32]] }
    let body : List Instr :=
      [.drop, .block none [.localGet 0, .localGet 0, .const .i32 1, .select, .drop],
        .localGet 0, .drop, .br 0]
    .select ∉ body ∧
      c.sequenceEffect body = .ok { params := [.f32, .any], results := [],
                                    polymorphic := true } ∧
      c.accumulate { results := [.f32, .i32] } 0 body =
        .ok { params := [], results := [], polymorphic := true } := by
  intro c body
  have hbody : .select ∉ body := by simp [body]
  have heffect : c.sequenceEffect body =
      .ok { params := [.f32, .any], results := [], polymorphic := true } := rfl
  exact ⟨hbody, heffect, ((sequences_compose c body hbody).2.1 _ _ _).mpr ⟨_,
    heffect, rfl⟩⟩

/-- After other operands than two of one type a selection fails, though on its own it
does not. -/
example :
    Context.sequenceEffect {} [.select] =
        .ok { params := [.any, .any, .i32], results := [.any] } ∧
      (StackEffect.andThen { results := [.i32, .i64, .i32] }
        { params := [.any, .any, .i32], results := [.any] }).toOption =
          some { results := [.any] } ∧
      (Context.sequenceEffectFrom {} { results := [.i32, .i64, .i32] }
        [.select]).toOption = none :=
  ⟨rfl, rfl, rfl⟩

end Context
end WebAssembly
