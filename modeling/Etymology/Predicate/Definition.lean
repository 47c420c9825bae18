import Etymology.Fault
import Etymology.Predicate.Basic

namespace Etymology

/-- The text of a value for comparison with a field. Truth values are written as in documents. -/
def Value.literal? : Value → Option String
  | .scalar (.bool b) => some (if b then "true" else "false")
  | v => v.written?

/-- What the field of a lexis holds when nothing is given for it. -/
def Field.absentText : Field → String
  | .pos => PartOfSpeech.none.name
  | _ => ""

namespace Comparator

/-- A bare text is compared for equality. -/
def ofValue (f : Field) (v : Value) : Except Fault Comparator :=
  match v with
  | .scalar (.text s) => return .equals s
  | .mapping [(key, arg)] =>
    match key with
    | .text "equals" => match arg with
      | .list items => return .equalsAll (← Fault.orUnsuitable (items.mapM Value.literal?))
      | .scalar .null => return .equals f.absentText
      | v => return .equals (← Fault.orUnsuitable v.literal?)
    | .text "oneof" => match arg with
      | .list items => return .oneof (← Fault.orUnsuitable (items.mapM Value.literal?))
      | _ => .error (.malformed (.oneofNotList f) none)
    | key => .error (.telling key.written? fun s => .malformed (.unknownComparator f s) none)
  | _ => .error (.malformed (.badComparator f) none)

end Comparator

namespace Predicate

/-- The condition on one field. A truth value or a text stands for equality with it. -/
def ofFieldSpec (f : Field) (spec : Value) : Except Fault Predicate :=
  match spec with
  | .scalar (.bool b) => return .field f (.equals (if b then "true" else "false"))
  | .scalar (.text s) => return .field f (.equals s)
  | .mapping [(key, arg)] =>
    match key with
    | .text "match" => return .field f (← Comparator.ofValue f arg)
    | .text "not" => return .not (.field f (← Comparator.ofValue f arg))
    | _ => return .field f (← Comparator.ofValue f spec)
  | _ => .error (.malformed (.badFieldSpec f) none)

/-- A single condition stands for itself. -/
def conjunction : List Predicate → Predicate
  | [p] => p
  | ps => .all ps

def ofEntry (key : Scalar) (spec : Value) : Except Fault Predicate :=
  match key with
  | .text name => match Field.ofSpelling? name with
    | some f => ofFieldSpec f spec
    | none => .error (.unknownField name)
  | key => .error (.telling key.written? .unknownField)

mutual

/-- Null is the absence of a condition. -/
def ofValue : Value → Except Fault (Option Predicate)
  | .scalar .null => .ok none
  | .mapping [] => .error (.malformed .conditionalEmpty none)
  | .mapping (e :: es) => match ofEntries (e :: es) with
    | .ok ps => .ok (some (conjunction ps))
    | .error fault => .error fault
  | v => .error (.malformed (.conditionalNotMapping v) none)

def ofEntries : List (Scalar × Value) → Except Fault (List Predicate)
  | [] => .ok []
  | (.text "not", spec) :: rest => match ofValue spec with
    | .ok none => .error (.malformed .nothingNegated none)
    | .ok (some p) => match ofEntries rest with
      | .ok ps => .ok (.not p :: ps)
      | .error fault => .error fault
    | .error fault => .error fault
  | (key, spec) :: rest => match ofEntry key spec with
    | .ok p => match ofEntries rest with
      | .ok ps => .ok (p :: ps)
      | .error fault => .error fault
    | .error fault => .error fault

end

end Predicate

end Etymology
