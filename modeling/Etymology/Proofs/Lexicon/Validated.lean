import Etymology.Proofs.Finding
import Etymology.Proofs.Lexicon.History
import Etymology.Proofs.Lexicon.Origin

namespace Etymology

/-- A script of the registry was run, and it is the cause of the failure. -/
inductive ScriptRegistry.Reports (r : ScriptRegistry) : String → ScriptFault → Prop
  | failed {file script w context cause} : r.get? file = some script →
      script w context = .failed cause → Reports r file cause
  | failedAt {name script w context lexis file cause} : r.get? name = some script →
      script w context = .failedAt lexis file cause → Reports r file cause
  | notText {file script w context v} : r.get? file = some script → script w context = .returned v →
      (∀ s, v ≠ .scalar (.text s)) → Reports r file (.notText v)

namespace Lexicon

section Validated

variable {l : Lexicon} {findings : List Finding}
  (checked : validate l.graph l.transforms l.rules (l.generator.map Generator.phonology) l.scripts =
    .ok findings)

include checked

end Validated

end Lexicon

end Etymology
