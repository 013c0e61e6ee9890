import WebAssembly.Proofs.Attempt

/-!
# What features change

Validation looks at the features in three places: at function types of several results,
at the signatures of structured instructions, and at sign extensions.  Where a module
calls for a feature, a set that has it lets validation go on and a set without it ends
validation; no other check depends on the features.  So more features accept more
modules and give them the same imports, and features that a module does not call for are
without any influence.
-/

namespace WebAssembly

namespace Features

/-- Every feature of the first set is in the second one. -/
instance : HasSubset Features where
  Subset few more := few.bits &&& more.bits = few.bits

instance (few more : Features) : Decidable (few ⊆ more) :=
  inferInstanceAs (Decidable (few.bits &&& more.bits = few.bits))

theorem has_of_subset
    {few more : Features} (h : few ⊆ more) {wanted : Features}
    (hwanted : few.has wanted = true) :
    more.has wanted = true := by
  have hbits : few.bits &&& more.bits = few.bits := h
  simp only [has, bne_iff_ne, ne_eq] at hwanted ⊢
  intro hzero
  apply hwanted
  rw [← hbits, UInt64.and_assoc, hzero, UInt64.and_zero]

end Features

/-! ## Constructs that call for a feature -/

/-- An instruction stands in a sequence, at any depth. -/
inductive Instr.StandsIn (instr : Instr) : List Instr → Prop
  | here {body} (h : instr ∈ body) : instr.StandsIn body
  | inBlock {type inner body} (h : .block type inner ∈ body)
    (hinner : instr.StandsIn inner) :
    instr.StandsIn body
  | inLoop {type inner body} (h : .loop type inner ∈ body)
    (hinner : instr.StandsIn inner) :
    instr.StandsIn body
  | whenTrue {type inner other body} (h : .ifElse type inner other ∈ body)
    (hinner : instr.StandsIn inner) :
    instr.StandsIn body
  | whenFalse {type other inner body} (h : .ifElse type other inner ∈ body)
    (hinner : instr.StandsIn inner) :
    instr.StandsIn body

theorem Instr.StandsIn.mono
    {instr : Instr} {body more : List Instr} (h : instr.StandsIn body)
    (hmore : body ⊆ more) :
    instr.StandsIn more := by
  cases h with
  | here h => exact .here (hmore h)
  | inBlock h hinner => exact .inBlock (hmore h) hinner
  | inLoop h hinner => exact .inLoop (hmore h) hinner
  | whenTrue h hinner => exact .whenTrue (hmore h) hinner
  | whenFalse h hinner => exact .whenFalse (hmore h) hinner

/-- The instruction itself, apart from what stands inside it, needs the feature. -/
def Instr.CallsFor (feature : Features) : Instr → Prop
  | .block type _ | .loop type _ | .ifElse type _ _ =>
    feature = .multiValue ∧ ((blockSignature type).params ≠ [] ∨
      1 < (blockSignature type).results.length)
  | .unary (.signExtend _) => feature = .signExtension
  | _ => False

/-- Something in the module needs the feature: a function type of several results, or an
instruction at any depth of a body. -/
inductive Module.CallsFor (m : Module) : Features → Prop
  | type {type} (htype : some type ∈ m.types) (hresults : 1 < type.results.length) :
    m.CallsFor .multiValue
  | instr {code instr feature} (hcode : some code ∈ m.code)
    (hinstr : Instr.StandsIn instr code.body)
    (hfeature : instr.CallsFor feature) : m.CallsFor feature

/-! ## Attempts that differ in a failure -/

namespace Attempt

variable {ε ε' α β : Type} {free : Prop}

/-- The two attempts end alike.  If they are free to differ, the first one may also fail
where the second one does something else. -/
def Loosens (free : Prop) (x y : Attempt ε α) : Prop :=
  x = y ∨ free ∧ ∀ a, x ≠ .ok a

theorem loosens_refl (x : Attempt ε α) : Loosens free x x :=
  .inl rfl

theorem Loosens.bind
    {x y : Attempt ε α} {f g : α → Attempt ε β} (h : Loosens free x y)
    (hnext : ∀ a, x = .ok a → Loosens free (f a) (g a)) :
    Loosens free (x >>= f) (y >>= g) := by
  rcases h with rfl | ⟨hfree, hfails⟩
  · cases hx : x with
    | ok a => exact hnext a hx
    | error failure => exact loosens_refl _
  · refine .inr ⟨hfree, fun b hb => ?_⟩
    obtain ⟨a, ha, -⟩ := bind_eq_ok.mp hb
    exact hfails a ha

theorem Loosens.mapCause
    {x y : Attempt ε α} (h : Loosens free x y) (f : ε → ε') :
    Loosens free (mapCause f x) (mapCause f y) := by
  rcases h with rfl | ⟨hfree, hfails⟩
  · exact loosens_refl _
  · exact .inr ⟨hfree, fun a ha => hfails a (mapCause_eq_ok.mp ha)⟩

theorem loosens_require
    {few more : Bool} {cause : ε} (h : few = more ∨ free ∧ few = false) :
    Loosens free (require few cause) (require more cause) := by
  rcases h with rfl | ⟨hfree, rfl⟩
  · exact loosens_refl _
  · exact .inr ⟨hfree, fun _ => fail_ne_ok⟩

end Attempt

theorem loosens_checkEntries
    {α : Type} {free : Prop} {place : Section} {few more : Nat → α → Check Unit}
    {entries : List α}
    (h : ∀ index, ∀ a ∈ entries, Attempt.Loosens free (few index a) (more index a))
    (index : Nat) :
    Attempt.Loosens free (checkEntries place few index entries)
      (checkEntries place more index entries) := by
  induction entries generalizing index with
  | nil => exact Attempt.loosens_refl _
  | cons a rest ih =>
      refine ((h index a List.mem_cons_self).mapCause _).bind
        fun _ _ => ih ?_ (index + 1)
      exact fun index b hb => h index b (List.mem_cons_of_mem a hb)

/-! ## Checks of bodies -/

/-- Two sets of features agree on a feature or, if checks are free to differ, the first
one is without it. -/
def Features.Admits (few more : Features) (free : Prop) (feature : Features) : Prop :=
  few.has feature = more.has feature ∨ free ∧ few.has feature = false

namespace Context

variable {c : Context} {few more : Features} {free : Prop}

/-- The context with other features. -/
def under (c : Context) (features : Features) : Context :=
  { c with features }

theorem loosens_checkBlockType
    {type : FuncType}
    (h : type.params ≠ [] ∨ 1 < type.results.length →
      few.Admits more free .multiValue) :
    Attempt.Loosens free ((c.under few).checkBlockType type)
      ((c.under more).checkBlockType type) := by
  refine (Attempt.loosens_refl _).bind fun _ _ =>
    (Attempt.loosens_refl _).bind fun _ _ =>
    Attempt.loosens_require ?_
  by_cases hplain : type.params = [] ∧ type.results.length ≤ 1
  · simp [hplain]
  · have hcalls : type.params ≠ [] ∨ 1 < type.results.length := by
      by_cases hparams : type.params = []
      · exact .inr (Nat.not_le.mp fun hresults => hplain ⟨hparams, hresults⟩)
      · exact .inl hparams
    have hcondition (features : Features) :
        (decide (type.params = []) && decide (type.results.length ≤ 1) ||
            (c.under features).features.has .multiValue) =
          features.has .multiValue := by
      rw [← Bool.decide_and, decide_eq_false hplain, Bool.false_or, under]
    rw [hcondition few, hcondition more]
    exact h hcalls

theorem checkTargets_under
    {types : List ValueType} {default : UInt32} {labels : List UInt32} :
    (c.under few).checkTargets types default labels = (c.under more).checkTargets types
      default labels := by
  induction labels with
  | nil => rfl
  | cons label rest ih =>
      rw [checkTargets, checkTargets, ih]
      rfl

mutual

theorem loosens_effect
    (instr : Instr) {c : Context} {running : StackEffect}
    (h : ∀ inner feature, Instr.StandsIn inner [instr] → inner.CallsFor feature →
      few.Admits more free feature) :
    Attempt.Loosens free ((c.under few).effect running instr)
      ((c.under more).effect running instr) := by
  have hself (feature : Features) (hcalls : instr.CallsFor feature) :
      few.Admits more free feature :=
    h instr feature (.here List.mem_cons_self) hcalls
  cases instr with
  | block type body =>
      refine (loosens_checkBlockType fun hcalls => hself _ ⟨rfl, hcalls⟩).bind
        fun _ _ =>
        Attempt.Loosens.bind ?_ fun _ _ => Attempt.loosens_refl _
      exact loosens_accumulate (c := c.inBlock (blockSignature type).results) body
        fun inner feature hinner =>
        h inner feature (.inBlock List.mem_cons_self hinner)
  | loop type body =>
      refine (loosens_checkBlockType fun hcalls => hself _ ⟨rfl, hcalls⟩).bind
        fun _ _ =>
        Attempt.Loosens.bind ?_ fun _ _ => Attempt.loosens_refl _
      exact loosens_accumulate (c := c.inBlock (blockSignature type).params) body
        fun inner feature hinner =>
        h inner feature (.inLoop List.mem_cons_self hinner)
  | ifElse type whenTrue whenFalse =>
      refine (loosens_checkBlockType fun hcalls => hself _ ⟨rfl, hcalls⟩).bind
        fun _ _ =>
        Attempt.Loosens.bind ?_ fun _ _ => (Attempt.loosens_refl _).bind fun _ _ =>
        Attempt.Loosens.bind (Attempt.Loosens.mapCause ?_ _) fun _ _ =>
          Attempt.loosens_refl _
      · exact loosens_accumulate (c := c.inBlock (blockSignature type).results) whenTrue
          fun inner feature hinner =>
          h inner feature (.whenTrue List.mem_cons_self hinner)
      · refine Attempt.Loosens.bind ?_ fun _ _ => Attempt.loosens_refl _
        exact loosens_accumulate (c := c.inBlock (blockSignature type).results)
          whenFalse fun inner feature hinner =>
          h inner feature (.whenFalse List.mem_cons_self hinner)
  | brTable labels default =>
      refine (Attempt.loosens_refl _).bind fun types _ => ?_
      rw [@checkTargets_under c few more]
      exact Attempt.loosens_refl _
  | unary op =>
      cases op with
      | signExtend extension =>
          exact (Attempt.loosens_require (hself _ rfl)).bind fun _ _ =>
            Attempt.loosens_refl _
      | _ => exact Attempt.loosens_refl _
  | _ => exact Attempt.loosens_refl _

theorem loosens_accumulate
    (body : List Instr) {c : Context} {running : StackEffect} {position : Nat}
    (h : ∀ inner feature, Instr.StandsIn inner body → inner.CallsFor feature →
      few.Admits more free feature) :
    Attempt.Loosens free ((c.under few).accumulate running position body)
      ((c.under more).accumulate running position body) := by
  cases body with
  | nil => exact Attempt.loosens_refl _
  | cons instr rest =>
      refine Attempt.Loosens.bind
        (Attempt.Loosens.mapCause
          (Attempt.Loosens.bind ?_ fun _ _ => Attempt.loosens_refl _) _) fun _ _ => ?_
      · exact loosens_effect instr fun inner feature hinner =>
          h inner feature (hinner.mono (by simp))
      · exact loosens_accumulate rest fun inner feature hinner =>
          h inner feature (hinner.mono (by simp))

end

end Context

/-! ## Checks of modules -/

namespace Module

variable {m : Module} {few more : Features} {free : Prop}

theorem loosens_checkType
    {type : Option FuncType}
    (h : ∀ t, type = some t → 1 < t.results.length → few.Admits more free .multiValue) :
    Attempt.Loosens free (checkType few type) (checkType more type) := by
  cases type with
  | none => exact Attempt.loosens_refl _
  | some t =>
      refine (Attempt.loosens_refl _).bind fun _ ht =>
        (Attempt.loosens_refl _).bind fun _ _ =>
        (Attempt.loosens_refl _).bind fun _ _ => Attempt.loosens_require ?_
      obtain rfl := Except.ok.inj ht
      by_cases hplain : t.results.length ≤ 1
      · simp [hplain]
      · simpa [hplain, Features.Admits] using h t rfl (Nat.not_le.mp hplain)

theorem loosens_checkFunction
    {c : Context} {position : Nat} {type : UInt32}
    (h : ∀ code inner feature, some code ∈ m.code → Instr.StandsIn inner code.body →
      inner.CallsFor feature →
      few.Admits more free feature) :
    Attempt.Loosens free (m.checkFunction (c.under few) position type)
      (m.checkFunction (c.under more) position type) := by
  refine (Attempt.loosens_refl _).bind fun entry hentry => (Attempt.loosens_refl _).bind
    fun code hcode =>
    (Attempt.loosens_refl _).bind fun _ _ => (Attempt.loosens_refl _).bind fun t _ =>
    Attempt.Loosens.bind ?_ fun _ _ => Attempt.loosens_refl _
  obtain rfl := Attempt.orFail_eq_ok.mp hcode
  have hmem : some code ∈ m.code :=
    List.mem_of_getElem? (Attempt.present_eq_ok.mp hentry)
  exact @Context.loosens_accumulate few more free code.body
    (c.inFunction t code.locals) _ _
    fun inner feature => h code inner feature hmem

theorem checkExports_under
    {c : Context} {seen : List String} {index : Nat} {entries : List (Option Export)} :
    checkExports (c.under few) seen index entries = checkExports (c.under more) seen
      index entries := by
  induction entries generalizing seen index with
  | nil => rfl
  | cons entry rest ih =>
      simp only [checkExports, ih]
      rfl

/-- Validation differs only if a set of features is without a feature that the module
calls for. -/
theorem loosens_validate
    (h : ∀ feature, m.CallsFor feature → few.Admits more free feature) :
    Attempt.Loosens free (m.validate few) (m.validate more) := by
  refine Attempt.Loosens.bind ?_ fun _ _ => (Attempt.loosens_refl _).bind
    fun imports _ =>
    (Attempt.loosens_refl _).bind fun _ _ => (Attempt.loosens_refl _).bind fun _ _ =>
    (Attempt.loosens_refl _).bind fun _ _ => (Attempt.loosens_refl _).bind fun _ _ =>
    Attempt.Loosens.bind ?_ fun _ _ => ?_
  · refine loosens_checkEntries (fun _ type htype =>
      loosens_checkType fun t ht hresults => ?_) 0
    exact h _ (.type (ht ▸ htype) hresults)
  · refine loosens_checkEntries (fun _ type _ => ?_) _
    exact @loosens_checkFunction m few more free (Context.ofModule m few) _ _
      fun code inner feature hcode hinner hfeature =>
        h feature (.instr hcode hinner hfeature)
  · rw [show checkExports (Context.ofModule m few) [] 0 m.exports =
      checkExports (Context.ofModule m more) [] 0 m.exports from @checkExports_under few
        more (.ofModule m few) _ _ _]
    exact Attempt.loosens_refl _

/-- Features only widen what validation accepts, and only where they are called for.
With more features a module that passes still passes, with the same imports.  Two sets
of features that agree on what the module calls for give the same outcome, be it imports
or a fault; all sets do if it calls for no feature. -/
theorem features_only_widen
    (m : Module) (few more : Features) :
    (few ⊆ more → ∀ imports, m.validate few = .ok imports →
      m.validate more = .ok imports) ∧
      ((∀ feature, m.CallsFor feature → few.has feature = more.has feature) →
        m.validate few = m.validate more) := by
  constructor
  · intro hsubset imports hfew
    have hloosens : Attempt.Loosens True (m.validate few) (m.validate more) := by
      refine loosens_validate fun feature _ => ?_
      cases hfeature : few.has feature with
      | true =>
          exact .inl (hfeature.trans (Features.has_of_subset hsubset hfeature).symm)
      | false => exact .inr ⟨trivial, hfeature⟩
    rcases hloosens with heq | ⟨-, hfails⟩
    · exact heq ▸ hfew
    · exact absurd hfew (hfails imports)
  · intro hagree
    have hloosens : Attempt.Loosens False (m.validate few) (m.validate more) :=
      loosens_validate fun feature hcalls => .inl (hagree feature hcalls)
    exact hloosens.resolve_right fun h => h.1

/-- A module with a sign extension inside a block. -/
def extending : Module where
  types := [some {}]
  functions := [0]
  code := [some {
    locals := []
    body := [.block none [.const .i32 200, .unary (.signExtend .i32From8), .drop]] }]

theorem extending_callsFor
    {feature : Features} (h : extending.CallsFor feature) :
    feature = .signExtension := by
  cases h with
  | type htype hresults =>
      simp only [extending, List.mem_singleton, Option.some.injEq] at htype
      simp [htype] at hresults
  | instr hcode hinstr hfeature =>
      simp only [extending, List.mem_singleton, Option.some.injEq] at hcode
      subst hcode
      cases hinstr with
      | here h =>
          rw [List.mem_singleton.mp h] at hfeature
          simp [Instr.CallsFor, blockSignature] at hfeature
      | inBlock h hinner =>
          obtain ⟨rfl, rfl⟩ := by simpa using h
          cases hinner with
          | here h =>
              simp only [List.mem_cons, List.not_mem_nil, or_false] at h
              rcases h with rfl | rfl | rfl
              · exact hfeature.elim
              · exact hfeature
              · exact hfeature.elim
          | inBlock h | inLoop h | whenTrue h | whenFalse h => simp at h
      | inLoop h | whenTrue h | whenFalse h => simp at h

/-- The module passes with the feature for it, also with another one besides, and
without it the other feature does not help. -/
theorem extending_widened :
    Features.signExtension ⊆ Features.signExtension.set .multiValue true ∧
      extending.validate (Features.signExtension.set .multiValue true) = .ok [] ∧
      (∀ feature, extending.CallsFor feature →
        Features.none.has feature = Features.multiValue.has feature) ∧
      extending.validate .none = extending.validate .multiValue := by
  have hsubset : Features.signExtension ⊆ Features.signExtension.set
      .multiValue true := by
    decide
  have hvalid : extending.validate .signExtension = .ok [] := rfl
  have hagree (feature : Features) (hcalls : extending.CallsFor feature) :
      Features.none.has feature = Features.multiValue.has feature := by
    rw [extending_callsFor hcalls]
    decide
  exact ⟨hsubset, (features_only_widen extending _ _).1 hsubset [] hvalid, hagree,
    (features_only_widen extending _ _).2 hagree⟩

end Module
end WebAssembly
