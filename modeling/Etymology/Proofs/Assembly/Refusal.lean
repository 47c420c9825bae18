import Etymology.Proofs.Assembly.Sections
import Etymology.Proofs.Transform

namespace Etymology

namespace EtymonCondition

/-- What is asked of the etymons, without its quantifier. -/
def asked : Value → Value
  | .mapping [(.text "all", inner)] => inner
  | .mapping [(.text "one", inner)] => inner
  | v => v

theorem quantified_escapes (q : Quantifier) (v : Value) :
    Escapes (Misdefined none) (quantified q v) (Conditional.Untellable v) := by
  have asks := Predicate.ofValue_escapes v
  unfold quantified
  split
  · next read => exact (Escapes.ok _).congr (iff_of_false not_false (asks.not_of_ok read))
  · next read => exact .malformed (asks.not_of_ok read)
  · next failed => exact asks.error failed

theorem ofValue_escapes (v : Value) :
    Escapes (Misdefined none) (EtymonCondition.ofValue v) (Conditional.Untellable (asked v)) := by
  unfold ofValue
  split
  · next inner => exact (quantified_escapes .all inner).bind_expected fun c => .ok (some c)
  · next inner => exact (quantified_escapes .one inner).bind_expected fun c => .ok (some c)
  · next notAll notOne =>
    have plain : asked v = v := by
      unfold asked
      split
      · exact (notAll _ rfl).elim
      · exact (notOne _ rfl).elim
      · rfl
    rw [plain]
    exact (Predicate.ofValue_escapes v).bind_expected fun p? => .ok (p?.map (EtymonCondition.mk .first))

end EtymonCondition

/-- A key that is a number, a truth value or null. -/
def Scalar.IsOdd (k : Scalar) : Prop :=
  ∀ s, k ≠ .text s

def Entries.HasOddKey (es : Entries) : Prop :=
  ∃ e ∈ es, e.1.IsOdd

theorem Scalar.texts?_eq_none {keys : List Scalar} :
    Value.texts? (keys.map Value.scalar) = none ↔ ∃ k ∈ keys, k.IsOdd := by
  induction keys with
  | nil => simp [Value.texts?]
  | cons k keys ih =>
    simp only [List.mem_cons, exists_eq_or_imp, ← ih, List.map_cons, Value.texts?]
    cases k with
    | text s =>
      have other : ¬ (Scalar.text s).IsOdd := fun odd => odd s rfl
      cases Value.texts? (keys.map Value.scalar) <;> simp [Value.text?, other]
    | _ => simp [Value.text?, IsOdd]

namespace GlobalRule

theorem sortedKeys_escapes {kinds : Fault → Prop} (keys : List Scalar) :
    Escapes kinds (sortedKeys keys) (∃ k ∈ keys, k.IsOdd) := by
  rw [← Scalar.texts?_eq_none]
  unfold sortedKeys
  split
  · next texts => exact (Escapes.ok _).congr (by simp [texts])
  · next none => exact .escaped none

/-- Keys that are not known are told by their texts, so one that is no text is not expected. -/
theorem unknown_escapes {α : Type} {kinds : Fault → Prop} {keys : List Scalar} {unknown : Scalar → Bool}
    {accepted : Except Fault α} {told : List String → Fault} (odd : ∀ k : Scalar, k.IsOdd → unknown k = true)
    (accepts : Escapes kinds accepted False)
    (refused : ∀ names, Escapes kinds (.error (told names) : Except Fault α) False) :
    Escapes kinds (if (keys.filter unknown).isEmpty then accepted
      else sortedKeys (keys.filter unknown) >>= fun names => .error (told names)) (∃ k ∈ keys, k.IsOdd) := by
  have among : (∃ k ∈ keys, k.IsOdd) ↔ ∃ k ∈ keys.filter unknown, k.IsOdd := by
    simp only [List.mem_filter, and_assoc]
    exact exists_congr fun k => and_congr_right fun _ => ⟨fun o => ⟨odd k o, o⟩, And.right⟩
  rw [among]
  split
  · next all =>
    rw [List.isEmpty_iff.mp all]
    exact accepts.congr (by simp)
  · exact (sortedKeys_escapes _).bind_expected refused

/-- What is wrong with a rule cannot be told: an unknown key of its condition is no text, one of its primitives is so
and those before it are in order, or what is asked of a lexis or of its etymons is so. -/
inductive Untellable : Value → Prop
  | key {entries : Entries} {items} {condition : Entries} : entries.getD "transforms" = .list items →
      entries.getD "conditional" = .mapping condition → condition.HasOddKey → Untellable (.mapping entries)
  | primitive {entries : Entries} {items condition} : entries.getD "transforms" = .list items →
      conditionalEntries (entries.getD "conditional") = .ok condition →
      Meets Primitive.Document Primitive.Untellable items → Untellable (.mapping entries)
  | lexis {entries : Entries} {items condition} : entries.getD "transforms" = .list items →
      conditionalEntries (entries.getD "conditional") = .ok condition → (∀ v ∈ items, Primitive.Document v) →
      Conditional.Untellable (condition.getD "lexis") → Untellable (.mapping entries)
  | etymon {entries : Entries} {items condition} : entries.getD "transforms" = .list items →
      conditionalEntries (entries.getD "conditional") = .ok condition → (∀ v ∈ items, Primitive.Document v) →
      condition.getD "lexis" = .null ∨ Conditional.Document (condition.getD "lexis") →
      Conditional.Untellable (EtymonCondition.asked (condition.getD "etymon")) → Untellable (.mapping entries)

theorem conditionOf_escapes (entries : Entries) : Escapes (Misdefined none) (conditionOf entries)
    (Conditional.Untellable (entries.getD "lexis") ∨
      (entries.getD "lexis" = .null ∨ Conditional.Document (entries.getD "lexis")) ∧
        Conditional.Untellable (EtymonCondition.asked (entries.getD "etymon"))) := by
  rw [← Predicate.ofValue_ok_iff]
  exact (Predicate.ofValue_escapes _).bind_alike fun lexis =>
    (EtymonCondition.ofValue_escapes _).bind_expected fun etymon => .ok (lexis, etymon)

theorem conditionalEntries_escapes (v : Value) : Escapes (Misdefined none) (conditionalEntries v)
    (∃ entries, v = .mapping entries ∧ Entries.HasOddKey entries) := by
  have checked : ∀ entries : Entries, Escapes (Misdefined none)
      (if ((entries.map (·.1)).filter fun k => k != .text "lexis" && k != .text "etymon").isEmpty then return entries
        else sortedKeys ((entries.map (·.1)).filter fun k => k != .text "lexis" && k != .text "etymon") >>= fun names =>
          .error (.malformed (.unknownConditionalKeys names) none)) entries.HasOddKey := by
    intro entries
    refine (unknown_escapes (fun k odd => ?_) (.ok entries) fun _ => .malformed id).congr (by simp [Entries.HasOddKey])
    simp [odd "lexis", odd "etymon"]
  unfold conditionalEntries
  simp only
  split
  · next entries => exact (checked entries).congr (by simp)
  · next other =>
    have other' : ∀ entries, v ≠ .mapping entries := other
    split
    · exact (checked []).congr (by simp [Entries.HasOddKey, other'])
    · refine .malformed ?_
      rintro ⟨entries, same, -⟩
      exact other entries same

theorem ofMapping_escapes (name : String) (entries : Entries) :
    Escapes (Misdefined none) (ofMapping name entries) (Untellable (.mapping entries)) := by
  unfold ofMapping
  split
  · next items list =>
    refine Escapes.congr ((conditionalEntries_escapes _).bind fun condition _ =>
      (Escapes.mapM Primitive.ofValue_escapes (fun _ => Primitive.ofValue_ok_iff) items).bind_alike fun primitives =>
        (conditionOf_escapes condition).bind_expected fun asked => .ok (GlobalRule.mk name primitives asked.1 asked.2)) ?_
    simp only [exists_mapM_eq_ok, Primitive.ofValue_ok_iff]
    constructor
    · rintro (⟨condition, under, odd⟩ | ⟨condition, read, meets | ⟨fine, lexis | ⟨asked, etymon⟩⟩⟩)
      · exact .key list under odd
      · exact .primitive list read meets
      · exact .lexis list read fine lexis
      · exact .etymon list read fine asked etymon
    · intro untellable
      cases untellable with
      | key _ under odd => exact .inl ⟨_, under, odd⟩
      | primitive list' read meets =>
        obtain rfl := Value.list.inj (list.symm.trans list')
        exact .inr ⟨_, read, .inl meets⟩
      | lexis list' read fine lexis =>
        obtain rfl := Value.list.inj (list.symm.trans list')
        exact .inr ⟨_, read, .inr ⟨fine, .inl lexis⟩⟩
      | etymon list' read fine asked etymon =>
        obtain rfl := Value.list.inj (list.symm.trans list')
        exact .inr ⟨_, read, .inr ⟨fine, .inr ⟨asked, etymon⟩⟩⟩
  · next other =>
    refine .malformed fun untellable => ?_
    cases untellable <;> exact other _ ‹_›

theorem ofValue_escapes (v : Value) (index : Int) :
    Escapes (Misdefined (some (nameAt index))) (GlobalRule.ofValue v index) (Untellable v) := by
  unfold ofValue
  split
  · exact (ofMapping_escapes _ _).retold (fun _ => Transform.blame_eq_unsuitable _) fun _ => Transform.misdefined_blame
  · next other =>
    refine .malformed fun untellable => ?_
    cases untellable <;> exact other _ rfl

end GlobalRule

theorem Pattern.ofValue_escapes (v : Value) : Escapes (Misdefined none) (Pattern.ofValue v) v.Untold := by
  unfold ofValue
  split
  · exact (Escapes.ok _).congr (iff_of_false not_false nofun)
  · rw [← Value.quoted?_eq_none_iff]
    exact .telling (fun t => .malformed _) nofun

theorem Pattern.ofValue_ok_iff {v : Value} : (∃ p, Pattern.ofValue v = .ok p) ↔ ∃ s, v = .text s := by
  unfold ofValue
  split
  · next s => exact ⟨fun _ => ⟨s, rfl⟩, fun _ => ⟨ofText s, rfl⟩⟩
  · next other => exact ⟨nofun, fun ⟨s, same⟩ => (other s same).elim⟩

namespace Phonology

/-- An entry of a table has a pattern that is neither a text nor has one, or a key that has none and no patterns that
are refused before it. -/
inductive UntellableEntry : Scalar × Value → Prop
  | pattern {key items} : Meets (fun v => ∃ s, v = .text s) Value.Untold items → UntellableEntry (key, .list items)
  | key {key v} : (∀ items, v = .list items → ∀ w ∈ items, ∃ s, w = .text s) → (Value.scalar key).Untold →
      UntellableEntry (key, v)

theorem untellableEntry_iff {key : Scalar} {v : Value} : UntellableEntry (key, v) ↔
    (∃ items, v = .list items ∧ Meets (fun v => ∃ s, v = .text s) Value.Untold items) ∨
      (∀ items, v = .list items → ∀ w ∈ items, ∃ s, w = .text s) ∧ (Value.scalar key).Untold := by
  constructor
  · rintro (meets | ⟨texts, untold⟩)
    · exact .inl ⟨_, rfl, meets⟩
    · exact .inr ⟨texts, untold⟩
  · rintro (⟨items, rfl, meets⟩ | ⟨texts, untold⟩)
    · exact .pattern meets
    · exact .key texts untold

/-- An entry of a table puts its alternatives under the text of its key. -/
def withAlternatives (name : String) (t : Table (List Pattern)) (e : Scalar × Value) :
    Except Fault (Table (List Pattern)) := do
  let alternatives ← alternativesOf name e.1 e.2
  let symbol ← Fault.orUnsuitable e.1.written?
  return t.put symbol alternatives

theorem tableOfEntries_eq_foldlM (name : String) (t : Table (List Pattern)) (es : Entries) :
    tableOfEntries name t es = es.foldlM (withAlternatives name) t := by
  induction es generalizing t with
  | nil => rfl
  | cons e es ih =>
    obtain ⟨key, v⟩ := e
    rw [tableOfEntries, List.foldlM_cons, withAlternatives]
    cases alternativesOf name key v with
    | error cause => rfl
    | ok alternatives => cases Fault.orUnsuitable key.written? with
      | error cause => rfl
      | ok symbol => exact ih _

theorem withAlternatives_escapes (name : String) (t : Table (List Pattern)) (e : Scalar × Value) :
    Escapes (Misdefined none) (withAlternatives name t e) (UntellableEntry e) := by
  obtain ⟨key, v⟩ := e
  have keyed (alternatives : List Pattern) : Escapes (Misdefined none) (do
      let symbol ← Fault.orUnsuitable key.written?
      return t.put symbol alternatives) ((Value.scalar key).Untold) := by
    rw [← Scalar.written?_eq_none_iff]
    exact Escapes.orUnsuitable.bind_expected fun symbol => .ok _
  rw [untellableEntry_iff]
  simp only [withAlternatives]
  unfold alternativesOf
  split
  · exact (keyed _).congr (by simp)
  · next first rest =>
    refine ((Escapes.mapM Pattern.ofValue_escapes (fun _ => Pattern.ofValue_ok_iff) (first :: rest)).bind_alike
      keyed).congr ?_
    simp only [exists_mapM_eq_ok, Pattern.ofValue_ok_iff, Value.list.injEq, exists_eq_left', forall_eq']
  · next noText noItems =>
    have unlisted : ∀ items, v = .list items → items = [] := by
      rintro (_ | ⟨first, rest⟩) same
      · rfl
      · exact (noItems first rest same).elim
    have untold : (Value.scalar key).Untold ↔
        (∃ items, v = .list items ∧ Meets (fun v => ∃ s, v = .text s) Value.Untold items) ∨
          (∀ items, v = .list items → ∀ w ∈ items, ∃ s, w = .text s) ∧ (Value.scalar key).Untold := by
      constructor
      · refine fun untold => .inr ⟨fun items list => ?_, untold⟩
        rw [unlisted items list]
        exact nofun
      · rintro (⟨items, list, meets⟩ | ⟨-, untold⟩)
        · rw [unlisted items list] at meets
          exact (not_meets_nil meets).elim
        · exact untold
    rw [← untold, ← Scalar.written?_eq_none_iff]
    have told : Escapes (Misdefined none) (.error (.telling key.written? fun k => .malformed (.badAlternatives name k)
        none) : Except Fault (List Pattern)) (key.written? = none) := .telling (fun k => .malformed _) nofun
    exact told.error rfl

/-- A table is not told of where an entry that is reached is not. -/
def UntellableTable (name : String) (v : Value) : Prop :=
  ∃ es, v.section? = some es ∧ Reaches (withAlternatives name) (fun _ => UntellableEntry) es {}

theorem tableOf_escapes (name : String) (v : Value) :
    Escapes (Misdefined none) (tableOf name v) (UntellableTable name v) := by
  rw [Assembly.tableOf_eq, UntellableTable]
  cases v.section? with
  | none => exact .malformed nofun
  | some es =>
    rw [Option.elim_some, tableOfEntries_eq_foldlM]
    exact (Escapes.foldlM (withAlternatives_escapes name) es {}).congr (by simp)

/-- One of the two tables is not told of, and the groups come first. -/
def Untellable (entries : Entries) : Prop :=
  UntellableTable "groups" (entries.getD "groups") ∨ (∃ groups, tableOf "groups" (entries.getD "groups") = .ok groups) ∧
    UntellableTable "lexis_types" (entries.getD "lexis_types")

theorem ofEntries_escapes (entries : Entries) :
    Escapes (Misdefined none) (ofEntries entries) (Untellable entries) :=
  (tableOf_escapes _ _).bind_alike fun groups =>
    (tableOf_escapes _ _).bind_expected fun types => .ok (Phonology.mk groups types)

end Phonology

namespace Assembly

variable {a : Assembly} {kinds : Fault → Prop}

theorem andThen_escapes {step : Assembly → Assembly × Except Fault Unit} {r : Assembly × Except Fault Unit}
    {bare : Prop} {next : Assembly → Prop} (first : Escapes kinds r.2 bare)
    (later : ∀ b, r = (b, .ok ()) → Escapes kinds (step b).2 (next b)) :
    Escapes kinds (andThen step r).2 (bare ∨ ∃ b, r = (b, .ok ()) ∧ next b) := by
  obtain ⟨c, outcome⟩ := r
  cases outcome with
  | error fault => exact first.congr (by simp)
  | ok u =>
    have never := first.not_of_ok rfl
    exact (later c rfl).congr (by simp [never])

/-- A section that is followed by one that expects every value. -/
theorem andThen_expected {step : Assembly → Assembly × Except Fault Unit} {r : Assembly × Except Fault Unit}
    {bare : Prop} (first : Escapes kinds r.2 bare) (later : ∀ b, Escapes kinds (step b).2 False) :
    Escapes kinds (andThen step r).2 bare :=
  (andThen_escapes first fun b _ => later b).congr (by simp)

theorem elim_escapes {β : Type} {o : Option β} {fault : Fault} {f : β → Assembly × Except Fault Unit}
    {bare : β → Prop} (told : Escapes kinds (.error fault : Except Fault Unit) False)
    (read : ∀ x, Escapes kinds (f x).2 (bare x)) :
    Escapes kinds (o.elim (a, .error fault) f).2 (∃ x, o = some x ∧ bare x) := by
  cases o with
  | none => exact told.congr (by simp)
  | some x => exact (read x).congr (by simp)

theorem checkSections_escapes (doc : Entries) : Escapes Refused (checkSections doc) doc.HasOddKey := by
  have keys : doc.HasOddKey ↔ ∃ k ∈ doc.map (·.1), k.IsOdd := by simp [Entries.HasOddKey]
  rw [keys]
  refine GlobalRule.unknown_escapes (fun k odd => ?_) (.ok ()) fun _ => .refused (.document _) id
  simp [sections, odd "words", odd "transforms", odd "globals", odd "phonetics"]

/-- A transform whose name has no text, or whose definition cannot be told of, is reached. -/
def ReachesTransform (es : Entries) (a : Assembly) : Prop :=
  Reaches withTransform (fun _ e => (Value.scalar e.1).Untold ∨ Transform.Untellable e.2) es a.transforms

theorem withTransform_escapes (t : Table Transform) (e : Scalar × Value) :
    Escapes Refused (withTransform t e) ((Value.scalar e.1).Untold ∨ Transform.Untellable e.2) := by
  rw [← Scalar.written?_eq_none_iff]
  unfold withTransform
  split
  · next untold => exact .escaped (.inl untold)
  · next name told =>
    refine ((Transform.ofValue_escapes name e.2).map.mono fun _ => Misdefined.refused).congr ?_
    simp [told]

theorem addTransforms_escapes (es : Entries) (a : Assembly) :
    Escapes Refused (addTransforms es a).2 (ReachesTransform es a) := by
  rw [← escapes_settle, settle_addTransforms]
  exact (Escapes.foldlM withTransform_escapes es a.transforms).map

/-- A rule that cannot be told of is reached. -/
def ReachesRule (vs : List Value) (a : Assembly) : Prop :=
  Reaches (fun rs v => do return rs ++ [← GlobalRule.ofValue v rs.length]) (fun _ => GlobalRule.Untellable) vs a.rules

theorem addRules_escapes (vs : List Value) (a : Assembly) :
    Escapes Refused (addRules vs a).2 (ReachesRule vs a) := by
  rw [← escapes_settle, settle_addRules]
  refine (Escapes.foldlM (fun rs v => ?_) vs a.rules).map
  exact ((GlobalRule.ofValue_escapes v rs.length).mono fun _ => Misdefined.refused).bind_expected fun r => .ok _

theorem addPhoneticSection_escapes (v : Value) (a : Assembly) : Escapes Refused (addPhoneticSection v a).2
    (∃ entries, v = .mapping entries ∧ Phonology.Untellable entries) := by
  unfold addPhoneticSection
  split
  · exact (Escapes.ok ()).congr (by simp)
  · next entries =>
    have reads := (Phonology.ofEntries_escapes entries).mono fun _ => Misdefined.refused
    split
    · next q read => exact (Escapes.ok ()).congr (by simpa using reads.not_of_ok read)
    · next failed => exact (reads.error failed).congr (by simp)
  · next noNull noMapping => exact .refused (.document _) fun ⟨entries, same, _⟩ => noMapping entries same

/-- In one of the sections other than the words something is reached that cannot be told of. -/
inductive ReachesUntellable (a : Assembly) (doc : Entries) : Prop
  | key : doc.HasOddKey → ReachesUntellable a doc
  | transform {es} : checkSections doc = .ok () → (doc.getD "transforms").section? = some es →
      ReachesTransform es a → ReachesUntellable a doc
  | rule {b vs} : checkSections doc = .ok () → addTransformSection (doc.getD "transforms") a = (b, .ok ()) →
      (ruleList (doc.getD "globals")).items? = some vs → ReachesRule vs b → ReachesUntellable a doc
  | phonetics {b c entries} : checkSections doc = .ok () →
      addTransformSection (doc.getD "transforms") a = (b, .ok ()) → addRuleSection (doc.getD "globals") b = (c, .ok ()) →
      doc.getD "phonetics" = .mapping entries → Phonology.Untellable entries → ReachesUntellable a doc

theorem start_eq_ok {b : Assembly} {doc : Entries} :
    (a, checkSections doc) = (b, .ok ()) ↔ checkSections doc = .ok () ∧ b = a := by
  rw [Prod.mk.injEq, and_comm, eq_comm (a := a)]

theorem reachesUntellable_iff {doc : Entries} : a.ReachesUntellable doc ↔
    (((doc.HasOddKey ∨ ∃ b, (a, checkSections doc) = (b, .ok ()) ∧ ∃ es,
        (doc.getD "transforms").section? = some es ∧ ReachesTransform es b) ∨
      ∃ b, andThen (addTransformSection (doc.getD "transforms")) (a, checkSections doc) = (b, .ok ()) ∧ ∃ vs,
        (ruleList (doc.getD "globals")).items? = some vs ∧ ReachesRule vs b) ∨
      ∃ b, andThen (addRuleSection (doc.getD "globals"))
        (andThen (addTransformSection (doc.getD "transforms")) (a, checkSections doc)) = (b, .ok ()) ∧ ∃ entries,
          doc.getD "phonetics" = .mapping entries ∧ Phonology.Untellable entries) := by
  simp only [andThen_eq_ok, start_eq_ok]
  constructor
  · rintro (odd | ⟨known, list, reaches⟩ | ⟨known, run, list, reaches⟩ | ⟨known, run, next, under, untellable⟩)
    · exact .inl (.inl (.inl odd))
    · exact .inl (.inl (.inr ⟨_, ⟨known, rfl⟩, _, list, reaches⟩))
    · exact .inl (.inr ⟨_, ⟨_, ⟨known, rfl⟩, run⟩, _, list, reaches⟩)
    · exact .inr ⟨_, ⟨_, ⟨_, ⟨known, rfl⟩, run⟩, next⟩, _, under, untellable⟩
  · rintro (((odd | ⟨_, ⟨known, rfl⟩, es, list, reaches⟩) | ⟨b, ⟨_, ⟨known, rfl⟩, run⟩, vs, list, reaches⟩) |
      ⟨c, ⟨b, ⟨_, ⟨known, rfl⟩, run⟩, next⟩, entries, under, untellable⟩)
    · exact .key odd
    · exact .transform known list reaches
    · exact .rule known run list reaches
    · exact .phonetics known run next under untellable

theorem addDocument_without_escapes (a : Assembly) (doc : Entries) :
    Escapes Refused (a.addDocument (doc.without "words")).2 (a.ReachesUntellable (doc.without "words")) := by
  rw [reachesUntellable_iff]
  refine andThen_expected (andThen_escapes (andThen_escapes (andThen_escapes ?sections ?transforms) ?rules)
    fun b _ => addPhoneticSection_escapes _ b) ?words
  case sections => exact checkSections_escapes _
  case transforms =>
    intro b _
    rw [addTransformSection_eq]
    exact elim_escapes (.refused (.document _) id) fun es => addTransforms_escapes es b
  case rules =>
    intro b _
    rw [addRuleSection_eq]
    exact elim_escapes (.refused (.document _) id) fun vs => addRules_escapes vs b
  case words =>
    intro b
    rw [doc.getD_without_self]
    exact .ok ()

/-- Only words can be declared twice. -/
theorem addDocument_without_unrepeated (a : Assembly) (doc : Entries) (what : Duplicate) :
    (a.addDocument (doc.without "words")).2 ≠ .error (.duplicate what) := by
  intro failed
  rcases (a.addDocument_without_escapes doc).told _ failed with other | refused
  · cases other
  · cases refused

end Assembly

end Etymology
