namespace Etymology

inductive Field where
  | id
  | word
  | language
  | pos
  | kind
  | archaic
  | tags
  | history
  | generate
deriving DecidableEq, Inhabited

namespace Field

def name : Field → String
  | .id => "id"
  | .word => "word"
  | .language => "language"
  | .pos => "pos"
  | .kind => "lexis_type"
  | .archaic => "archaic"
  | .tags => "tags"
  | .history => "historical_metadata"
  | .generate => "generate"

/-- Two fields have a second spelling, which documents use for the entries themselves. -/
def ofSpelling? : String → Option Field
  | "id" => some .id
  | "word" => some .word
  | "language" => some .language
  | "pos" => some .pos
  | "part_of_speech" => some .pos
  | "type" => some .kind
  | "lexis_type" => some .kind
  | "archaic" => some .archaic
  | "tags" => some .tags
  | "historical_metadata" => some .history
  | "generate" => some .generate
  | _ => none

theorem ofSpelling?_name (f : Field) : ofSpelling? f.name = some f := by
  cases f <;> rfl

end Field

end Etymology
