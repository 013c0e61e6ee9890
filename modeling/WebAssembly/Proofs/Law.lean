import Mathlib.Algebra.Group.Nat.Defs
import WebAssembly.Engine.Interpreter

/-!
# What hosts and callers promise

Commands come from outside: from whoever holds the store, and from host functions.  A
lawful command is one of the public operations, carries lawful values only, and adds
only host functions whose programs are lawful in turn.  If a law is total, then a host
function that is given arguments of its declared types does not stop the run by force,
and nothing is left out that an operation cannot do without.
-/

namespace WebAssembly

@[simp] theorem Val.type_ofBits (type : ValueType) (bits : UInt64) :
    (Val.ofBits type bits).type = type := by
  unfold Val.ofBits
  split <;> rfl

/-- A property of values that every value made from bits has, and whether a host
function must come with a type. -/
structure ValueLaw where
  Holds : Val → Prop
  ofBits : ∀ type bits, Holds (Val.ofBits type bits)
  isTyped : Prop := False

namespace ValueLaw

variable (law : ValueLaw)

def HoldsAll (values : List Val) : Prop :=
  ∀ v ∈ values, law.Holds v

theorem zero (type : ValueType) : law.Holds (Val.zero type) := by
  have hzero : Val.zero type = Val.ofBits type 0 := by
    unfold Val.ofBits
    split <;> rfl
  rw [hzero]
  exact law.ofBits type 0

theorem ofU32 (n : UInt32) : law.Holds (Val.ofU32 n) := by
  have hbits : Val.ofU32 n = Val.ofBits .i32 n.toUInt64 := by
    simp [Val.ofU32, Val.ofBits]
  rw [hbits]
  exact law.ofBits .i32 n.toUInt64

/-- Every value satisfies the law. -/
def trivial : ValueLaw where
  Holds _ := True
  ofBits _ _ := True.intro

/-- Every value satisfies the law, and host functions come with their types. -/
def typed : ValueLaw :=
  { trivial with isTyped := True }

end ValueLaw

def Response.Lawful (law : ValueLaw) : Response → Prop
  | .value v => law.Holds v
  | .results values => law.HoldsAll values
  | .global inst => law.Holds inst.value
  | _ => True

/-- The length of every data segment is a signed word of 64 bits. -/
def Module.HasCountableData (m : Module) : Prop :=
  ∀ segment, some segment ∈ m.data → segment.init.length < 2 ^ 63

namespace Command

/-- A public operation that is given neither values nor host functions. -/
def IsPlain : Command → Prop
  | .findExport .. | .allocTable .. | .allocMemory .. | .globalGet .. | .tableSize ..
  | .tableGet .. | .tableSet .. | .tableGrow .. | .memorySize .. | .memoryRead ..
  | .memoryWrite ..
  | .memoryGrow .. | .memoryHasSize .. | .viewFunction .. | .viewTable ..
  | .viewMemory .. | .viewGlobal ..
  | .viewModule .. | .counts | .cancel => True
  | _ => False

/-- Nothing is left out that the operation cannot do without. -/
def IsComplete : Command → Prop
  | .allocGlobal none _ => False
  | _ => True

end Command

mutual

/-- A host program performs lawful commands and gives lawful values; under a total law
it does not stop the run by force. -/
inductive HostProgram.Lawful (law : ValueLaw) : Prop → HostProgram → Prop
  | done {total results} (hresults : law.HoldsAll results) :
    HostProgram.Lawful law total (.done results)
  | fail {total error} : HostProgram.Lawful law total (.fail error)
  | stop {total cause} (hpartial : ¬total) : HostProgram.Lawful law total (.stop cause)
  | perform {total command next}
    (hcommand : Command.Lawful law total command) (hcomplete : total →
      command.IsComplete)
    (hnext : ∀ response, response.Lawful law →
      HostProgram.Lawful law total (next response)) :
    HostProgram.Lawful law total (.perform command next)

/-- A command is a public operation with lawful values.  A host function that it adds is
lawful whatever its arguments, and keeps to a total law when they are of its declared
types. -/
inductive Command.Lawful (law : ValueLaw) : Prop → Command → Prop
  | plain {total command} (hplain : command.IsPlain) : Command.Lawful law total command
  | instantiate {total module name externs context}
    (hdata : total → ∀ m, module = some m → m.HasCountableData) :
    Command.Lawful law total (.instantiate module name externs context)
  | invoke {total function args context} (hargs : law.HoldsAll args) :
    Command.Lawful law total (.invoke function args context)
  | call {total module name args context} (hargs : law.HoldsAll args) :
    Command.Lawful law total (.call module name args context)
  | allocGlobal {total type v} (hv : law.Holds v) :
    Command.Lawful law total (.allocGlobal type v)
  | globalSet {total addr v} (hv : law.Holds v) :
    Command.Lawful law total (.globalSet addr v)
  | allocFunction {total name type host}
    (hpresent : total → type.isSome ∧ host.isSome) (htype : law.isTyped → type ≠ none)
    (hany : ∀ f, host = some f → ∀ params, law.HoldsAll params →
      HostProgram.Lawful law False (f params))
    (htyped : ∀ f t, host = some f → type = some t → ∀ params, law.HoldsAll params →
      params.map Val.type = t.params → HostProgram.Lawful law total (f params)) :
    Command.Lawful law total (.allocFunction name type host)

end

variable {law : ValueLaw} {total : Prop}

theorem Command.Lawful.instantiate_of_data_eq_nil
    {m : Module} {name : String} {externs : List ExternVal} {context : ContextChoice}
    (hdata : m.data = []) :
    Command.Lawful law total (.instantiate (some m) name externs context) := by
  refine .instantiate fun _ m' hm segment hsegment => ?_
  obtain rfl := Option.some.inj hm
  rw [hdata] at hsegment
  cases hsegment

theorem Command.Lawful.weaken
    {command : Command} (h : command.Lawful law total) : command.Lawful law False := by
  cases h with
  | plain hplain => exact .plain hplain
  | instantiate => exact .instantiate False.elim
  | invoke hargs => exact .invoke hargs
  | call hargs => exact .call hargs
  | allocGlobal hv => exact .allocGlobal hv
  | globalSet hv => exact .globalSet hv
  | allocFunction hpresent htype hany htyped =>
      exact .allocFunction False.elim htype hany fun f _ hf _ params hparams _ =>
        hany f hf params hparams

theorem HostProgram.Lawful.weaken : ∀ {total : Prop} {program : HostProgram},
    program.Lawful law total → program.Lawful law False
  | _, _, .done hresults => .done hresults
  | _, _, .fail => .fail
  | _, _, .stop _ => .stop id
  | _, _, .perform hcommand _ hnext =>
    .perform hcommand.weaken False.elim fun response hresponse =>
      (hnext response hresponse).weaken

/-- The end of a host program gives lawful values, and under a total law it is no forced
stop. -/
def HostEnd.Lawful (law : ValueLaw) (total : Prop) : HostEnd → Prop
  | .done results => law.HoldsAll results
  | .fail _ => True
  | .stop _ => ¬total

/-- What a host function of a store promises. -/
structure FuncInst.HostLawful (law : ValueLaw) (total : Prop)
    (f : FuncInst) : Prop where
  isPresent : total → f.type.isSome ∧ f.host.isSome
  type_ne_none : law.isTyped → f.type ≠ none
  any : ∀ host, f.host = some host → ∀ params, law.HoldsAll params →
    (host params).Lawful law False
  typed : ∀ host type, f.host = some host → f.type = some type → ∀ params,
    law.HoldsAll params →
    params.map Val.type = type.params → (host params).Lawful law total

end WebAssembly
