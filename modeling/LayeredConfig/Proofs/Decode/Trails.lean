import LayeredConfig.Proofs.Decode.Visits

/-!
The documents inside a tree, each reached by a trail of keys and positions, and the paths that trails
are written as. A walk visits the entries of exactly the documents that are reached.
-/

namespace LayeredConfig

/-- From a node to one of its parts. -/
inductive Hop
  | key (name : Str)
  | position (index : Nat)
  deriving DecidableEq, Repr

namespace Hop

def text : Hop → Str
  | .key name => "." ++ name
  | .position index => "[" ++ toString index ++ "]"

end Hop

/-- The hops from the root to a part. -/
abbrev Trail := List Hop

namespace Trail

/-- The text of a trail below a part. -/
def below : Trail → Str
  | [] => ""
  | hop :: trail => hop.text ++ below trail

/-- A trail as a path: no dot stands before a key of the root. -/
def text : Trail → Str
  | .key name :: trail => name ++ below trail
  | trail => below trail

/-- The path of a part that is reached from the part at another path. -/
def extend (path : Str) : Trail → Str
  | [] => path
  | .key name :: trail => extend (Decode.join path name) trail
  | .position index :: trail => extend (Decode.element path index) trail

/-- Below a part that has a path itself, every hop adds its text. -/
theorem extend_of_ne {path : Str} (named : path ≠ "") (trail : Trail) :
    extend path trail = path ++ below trail := by
  induction trail generalizing path with
  | nil => simp [extend, below]
  | cons hop trail ih =>
    cases hop with
    | key name =>
      have join : Decode.join path name = path ++ "." ++ name :=
        if_neg (by simpa [Str.isEmpty_iff] using named)
      rw [extend, join, ih (by simp [named]), below, Hop.text]
      simp only [Str.append_assoc]
    | position index =>
      rw [extend, Decode.element, ih (by simp [named]), below, Hop.text]
      simp only [Str.append_assoc]

/-- From the root on a walk writes trails as paths, if the first key is not empty. -/
theorem extend_key {name : Str} (named : name ≠ "") (rest : Trail) :
    extend "" (.key name :: rest) = text (.key name :: rest) := by
  have first : Decode.join "" name = name := rfl
  rw [extend, first, extend_of_ne named, text]

theorem extend_root {trail : Trail} (named : ∀ name rest, trail = .key name :: rest → name ≠ "")
    (last : Str) (rooted : ∀ index rest, trail ≠ .position index :: rest) :
    extend "" (trail ++ [.key last]) = text (trail ++ [.key last]) := by
  cases trail with
  | nil => simp [extend, text, below, Decode.join, Str.isEmpty]
  | cons hop trail =>
    cases hop with
    | position index => exact absurd rfl (rooted index trail)
    | key name => exact extend_key (named name trail rfl) _

end Trail

/-- A trail leads from a node under a shape to a dictionary that is read as a document. -/
inductive Reaches : Shape → Tree → Trail → List (Setting Shape) → List (Scalar × Tree) → Prop
  | here : Reaches (.document type settings) (.map mark entries) [] settings entries
  /-- Through a setting that the document has. -/
  | setting {known : Setting Shape} (entry : (key, node) ∈ entries)
      (found : settings.find? (·.name == key.text) = some known)
      (deeper : Reaches known.shape node trail fields pairs) :
      Reaches (.document type settings) (.map mark entries) (.key key.text :: trail) fields pairs
  | item {items : List Tree} (item : items[index]? = some node)
      (deeper : Reaches shape node trail fields pairs) :
      Reaches (.list shape) (.seq mark items) (.position index :: trail) fields pairs
  | member {items : List Tree} (parts : Decode.parts? whole = some items)
      (item : items[index]? = some node) (deeper : Reaches shape node trail fields pairs) :
      Reaches (.set shape) whole (.position index :: trail) fields pairs
  | value (entry : (key, node) ∈ entries) (deeper : Reaches shape node trail fields pairs) :
      Reaches (.map keyShape shape) (.map mark entries) (.key key.text :: trail) fields pairs

namespace Decode

/-- Only a list or a set has parts that are read as members, so null has none. -/
theorem isNull_of_parts? {node : Tree} {items : List Tree} (parts : parts? node = some items) :
    node.isNull = false := by
  cases node with
  | seq mark items => rfl
  | set members => rfl
  | _ => cases parts

section lists

variable {visit visitKey : Visitor} {path : Str} {wanted : Visit}

theorem mem_itemVisits {index : Nat} {items : List Tree} :
    wanted ∈ itemVisits visit path index items ↔
      ∃ place item, items[place]? = some item ∧ wanted ∈ visit item (element path (index + place)) := by
  induction items generalizing index with
  | nil => simp [itemVisits]
  | cons item items ih =>
    rw [itemVisits, List.mem_append, ih]
    constructor
    · intro visited
      rcases visited with here | ⟨place, other, found, there⟩
      · exact ⟨0, item, rfl, here⟩
      · exact ⟨place + 1, other, found, by rwa [Nat.add_right_comm] at there⟩
    · intro place
      obtain ⟨place, other, found, there⟩ := place
      cases place with
      | zero =>
        obtain rfl : item = other := by simpa using found
        exact .inl there
      | succ place => exact .inr ⟨place, other, by simpa using found, by rwa [Nat.add_right_comm]⟩

/-- The members of a set are visited as the items of a list, and each is checked afterwards. -/
theorem mem_memberVisits_iff {shape : Shape} {index : Nat} {items : List Tree} :
    wanted ∈ memberVisits shape visit path index items ↔
      wanted ∈ itemVisits visit path index items ∨ ∃ item ∈ items, wanted = .member shape item := by
  induction items generalizing index with
  | nil => simp [memberVisits, itemVisits]
  | cons item items ih =>
    rw [memberVisits, itemVisits, List.mem_append, List.mem_append, List.mem_cons, ih,
      List.exists_mem_cons_iff]
    constructor
    · intro visited
      rcases visited with here | check | items | members
      · exact .inl (.inl here)
      · exact .inr (.inl check)
      · exact .inl (.inr items)
      · exact .inr (.inr members)
    · intro visited
      rcases visited with (here | items) | check | members
      · exact .inl here
      · exact .inr (.inr (.inl items))
      · exact .inr (.inl check)
      · exact .inr (.inr (.inr members))

/-- The checks of members aside, the members of a set are visited as the items of a list. -/
theorem entry_mem_memberVisits {shape : Shape} {index : Nat} {items : List Tree} :
    .entry known here key child ∈ memberVisits shape visit path index items ↔
      .entry known here key child ∈ itemVisits visit path index items := by
  simp [mem_memberVisits_iff]

theorem mem_pairVisits_iff {shape : Shape} {entries : List (Scalar × Tree)} :
    wanted ∈ pairVisits shape visitKey visit path entries ↔
      ∃ label node, (label, node) ∈ entries ∧
        (wanted ∈ visitKey (.scalar label) path ∨ wanted = .label label ∨
          wanted ∈ visit node (join path label.text) ∨ wanted = .member shape (.scalar label)) := by
  induction entries with
  | nil => simp [pairVisits]
  | cons entry entries ih =>
    obtain ⟨label, node⟩ := entry
    simp only [pairVisits, List.mem_append, List.mem_cons, ih, Prod.mk.injEq]
    constructor
    · intro visited
      rcases visited with ofKey | name | ofValue | check | ⟨label', node', later, deeper⟩
      · exact ⟨label, node, .inl ⟨rfl, rfl⟩, .inl ofKey⟩
      · exact ⟨label, node, .inl ⟨rfl, rfl⟩, .inr (.inl name)⟩
      · exact ⟨label, node, .inl ⟨rfl, rfl⟩, .inr (.inr (.inl ofValue))⟩
      · exact ⟨label, node, .inl ⟨rfl, rfl⟩, .inr (.inr (.inr check))⟩
      · exact ⟨label', node', .inr later, deeper⟩
    · intro visited
      obtain ⟨label', node', ⟨rfl, rfl⟩ | later, deeper⟩ := visited
      · rcases deeper with ofKey | name | ofValue | check
        · exact .inl ofKey
        · exact .inr (.inl name)
        · exact .inr (.inr (.inl ofValue))
        · exact .inr (.inr (.inr (.inl check)))
      · exact .inr (.inr (.inr (.inr ⟨label', node', later, deeper⟩)))

theorem entry_mem_pairVisits {shape : Shape} {entries : List (Scalar × Tree)} :
    .entry known here key child ∈ pairVisits shape visitKey visit path entries ↔
      ∃ label node, (label, node) ∈ entries ∧
        (.entry known here key child ∈ visitKey (.scalar label) path ∨
          .entry known here key child ∈ visit node (join path label.text)) := by
  simp [mem_pairVisits_iff]

theorem mem_memberVisits {shape : Shape} {index place : Nat} {items : List Tree} {item : Tree}
    (found : items[place]? = some item) (visited : wanted ∈ visit item (element path (index + place))) :
    wanted ∈ memberVisits shape visit path index items :=
  mem_memberVisits_iff.mpr (.inl (mem_itemVisits.mpr ⟨place, item, found, visited⟩))

theorem mem_pairVisits {shape : Shape} {entries : List (Scalar × Tree)} {label : Scalar} {node : Tree}
    (member : (label, node) ∈ entries) (visited : wanted ∈ visit node (join path label.text)) :
    wanted ∈ pairVisits shape visitKey visit path entries :=
  mem_pairVisits_iff.mpr ⟨label, node, member, .inr (.inr (.inl visited))⟩

theorem mem_entryVisits {settings : List (Setting Shape)} {entries : List (Scalar × Tree)} :
    wanted ∈ entryVisits (visitors settings) path entries ↔
      ∃ key node, (key, node) ∈ entries ∧
        (wanted = .entry (settings.find? (·.name == key.text)) (join path key.text) key node ∨
          ∃ setting, settings.find? (·.name == key.text) = some setting ∧
            wanted ∈ visits setting.shape node (join path key.text)) := by
  induction entries with
  | nil => simp [entryVisits]
  | cons entry entries ih =>
    obtain ⟨key, node⟩ := entry
    have first : wanted ∈ entryVisits (visitors settings) path ((key, node) :: entries) ↔
        (wanted = .entry (settings.find? (·.name == key.text)) (join path key.text) key node ∨
          ∃ setting, settings.find? (·.name == key.text) = some setting ∧
            wanted ∈ visits setting.shape node (join path key.text)) ∨
          wanted ∈ entryVisits (visitors settings) path entries := by
      rw [entryVisits, find?_visitors]
      cases settings.find? (·.name == key.text) with
      | none => simp
      | some setting => simp [or_assoc]
    rw [first, ih]
    constructor
    · intro visited
      rcases visited with here | ⟨other, child, later, there⟩
      · exact ⟨key, node, List.mem_cons_self, here⟩
      · exact ⟨other, child, List.mem_cons_of_mem _ later, there⟩
    · intro visited
      obtain ⟨other, child, member, there⟩ := visited
      rcases List.mem_cons.mp member with same | later
      · cases same
        exact .inl there
      · exact .inr ⟨other, child, later, there⟩

end lists

/-- An entry of a document that is reached. -/
def EntryAt (shape : Shape) (node : Tree) (trail : Trail) (known : Option (Setting Shape))
    (key : Scalar) (child : Tree) : Prop :=
  ∃ settings entries, Reaches shape node trail settings entries ∧ (key, child) ∈ entries ∧
    known = settings.find? (·.name == key.text)

theorem mem_visiting_iff {shape : Shape} {parts : Visitor} {node : Tree} {path : Str} :
    wanted ∈ visiting shape parts node path ↔
      node.isNull = false ∧ (wanted = .form shape path node ∨ wanted ∈ parts node path) := by
  unfold visiting
  cases node.isNull <;> simp

theorem entry_mem_visiting {shape : Shape} {parts : Visitor} {node : Tree} {path : Str} :
    .entry known here key child ∈ visiting shape parts node path ↔
      node.isNull = false ∧ .entry known here key child ∈ parts node path := by
  simp [mem_visiting_iff]

theorem entry_mem_leaf {shape : Shape} (leaf : visits shape = visiting shape fun _ _ => [])
    (bare : ∀ node trail settings entries, ¬ Reaches shape node trail settings entries)
    {node : Tree} {path : Str} :
    .entry known here key child ∈ visits shape node path ↔
      ∃ trail, EntryAt shape node trail known key child ∧
        here = Trail.extend path (trail ++ [.key key.text]) := by
  rw [leaf, entry_mem_visiting]
  constructor
  · intro visited
    obtain ⟨-, impossible⟩ := visited
    cases impossible
  · intro reached
    obtain ⟨trail, ⟨settings, entries, reaches, -⟩, -⟩ := reached
    exact absurd reaches (bare _ _ _ _)

theorem EntryAt.item {items : List Tree} (found : items[index]? = some node)
    (entry : EntryAt shape node trail known key child) :
    EntryAt (.list shape) (.seq mark items) (.position index :: trail) known key child := by
  obtain ⟨settings, entries, reaches, rest⟩ := entry
  exact ⟨settings, entries, .item found reaches, rest⟩

theorem EntryAt.member {items : List Tree} (parts : parts? whole = some items)
    (found : items[index]? = some node) (entry : EntryAt shape node trail known key child) :
    EntryAt (.set shape) whole (.position index :: trail) known key child := by
  obtain ⟨settings, entries, reaches, rest⟩ := entry
  exact ⟨settings, entries, .member parts found reaches, rest⟩

theorem EntryAt.value {pairs : List (Scalar × Tree)} {label : Scalar}
    (found : (label, node) ∈ pairs) (entry : EntryAt shape node trail known key child) :
    EntryAt (.map keyShape shape) (.map mark pairs) (.key label.text :: trail) known key child := by
  obtain ⟨settings, entries, reaches, rest⟩ := entry
  exact ⟨settings, entries, .value found reaches, rest⟩

theorem EntryAt.setting {settings : List (Setting Shape)} {pairs : List (Scalar × Tree)}
    {label : Scalar} {through : Setting Shape} (found : (label, node) ∈ pairs)
    (listed : settings.find? (·.name == label.text) = some through)
    (entry : EntryAt through.shape node trail known key child) :
    EntryAt (.document type settings) (.map mark pairs) (.key label.text :: trail) known key child := by
  obtain ⟨fields, entries, reaches, rest⟩ := entry
  exact ⟨fields, entries, .setting found listed reaches, rest⟩

/-- A walk visits the entries of the documents that are reached, under their paths, and no others. -/
theorem entry_mem_visits {shape : Shape} {node : Tree} {path : Str} :
    .entry known here key child ∈ visits shape node path ↔
      ∃ trail, EntryAt shape node trail known key child ∧
        here = Trail.extend path (trail ++ [.key key.text]) := by
  induction shape generalizing node path with
  | str => exact entry_mem_leaf rfl fun _ _ _ _ reaches => by cases reaches
  | int => exact entry_mem_leaf rfl fun _ _ _ _ reaches => by cases reaches
  | float => exact entry_mem_leaf rfl fun _ _ _ _ reaches => by cases reaches
  | bool => exact entry_mem_leaf rfl fun _ _ _ _ reaches => by cases reaches
  | native type => exact entry_mem_leaf rfl fun _ _ _ _ reaches => by cases reaches
  | enumeration type => exact entry_mem_leaf rfl fun _ _ _ _ reaches => by cases reaches
  | list shape ih =>
    rw [visits, entry_mem_visiting]
    constructor
    · intro present
      obtain ⟨-, visited⟩ := present
      split at visited
      · obtain ⟨index, item, found, visited⟩ := mem_itemVisits.mp visited
        obtain ⟨trail, entry, rfl⟩ := ih.mp visited
        rw [Nat.zero_add]
        exact ⟨.position index :: trail, entry.item found, rfl⟩
      · cases visited
    · intro reached
      obtain ⟨trail, ⟨settings, entries, reaches, rest⟩, rfl⟩ := reached
      cases reaches with
      | item found deeper =>
        refine ⟨rfl, mem_itemVisits.mpr ⟨_, _, found, ?_⟩⟩
        rw [Nat.zero_add]
        exact ih.mpr ⟨_, ⟨settings, entries, deeper, rest⟩, rfl⟩
  | set shape ih =>
    rw [visits, entry_mem_visiting]
    constructor
    · intro present
      obtain ⟨-, visited⟩ := present
      split at visited
      · next items parts =>
        obtain ⟨index, item, found, visited⟩ := mem_itemVisits.mp (entry_mem_memberVisits.mp visited)
        obtain ⟨trail, entry, rfl⟩ := ih.mp visited
        rw [Nat.zero_add]
        exact ⟨.position index :: trail, entry.member parts found, rfl⟩
      · cases visited
    · intro reached
      obtain ⟨trail, ⟨settings, entries, reaches, rest⟩, rfl⟩ := reached
      cases reaches with
      | member parts found deeper =>
        simp only [parts]
        refine ⟨isNull_of_parts? parts, entry_mem_memberVisits.mpr (mem_itemVisits.mpr ⟨_, _, found, ?_⟩)⟩
        rw [Nat.zero_add]
        exact ih.mpr ⟨_, ⟨settings, entries, deeper, rest⟩, rfl⟩
  | map label shape ihKey ih =>
    rw [visits, entry_mem_visiting]
    constructor
    · intro present
      obtain ⟨-, visited⟩ := present
      split at visited
      · obtain ⟨label, node, member, ofKey | ofValue⟩ := entry_mem_pairVisits.mp visited
        · -- a key is a scalar, and nothing is reached in it
          obtain ⟨trail, ⟨settings, entries, reaches, -⟩, -⟩ := ihKey.mp ofKey
          cases reaches with
          | member parts => cases parts
        · obtain ⟨trail, entry, rfl⟩ := ih.mp ofValue
          exact ⟨.key label.text :: trail, entry.value member, rfl⟩
      · cases visited
    · intro reached
      obtain ⟨trail, ⟨settings, entries, reaches, rest⟩, rfl⟩ := reached
      cases reaches with
      | value member deeper =>
        refine ⟨rfl, entry_mem_pairVisits.mpr ⟨_, _, member, .inr ?_⟩⟩
        exact ih.mpr ⟨_, ⟨settings, entries, deeper, rest⟩, rfl⟩
  | document name settings ih =>
    rw [visits, entry_mem_visiting]
    constructor
    · intro present
      obtain ⟨-, visited⟩ := present
      split at visited
      · next mark entries =>
        obtain ⟨label, node, member, same | ⟨through, listed, visited⟩⟩ := mem_entryVisits.mp visited
        · cases same
          exact ⟨[], ⟨settings, entries, .here, member, rfl⟩, rfl⟩
        · obtain ⟨trail, entry, rfl⟩ := (ih through (List.mem_of_find?_eq_some listed)).mp visited
          exact ⟨.key label.text :: trail, entry.setting member listed, rfl⟩
      · cases visited
    · intro reached
      obtain ⟨trail, ⟨fields, entries, reaches, member, rfl⟩, rfl⟩ := reached
      cases reaches with
      | here => exact ⟨rfl, mem_entryVisits.mpr ⟨key, child, member, .inl rfl⟩⟩
      | setting entry listed deeper =>
        refine ⟨rfl, mem_entryVisits.mpr ⟨_, _, entry, .inr ⟨_, listed, ?_⟩⟩⟩
        exact (ih _ (List.mem_of_find?_eq_some listed)).mpr
          ⟨_, ⟨fields, entries, deeper, member, rfl⟩, rfl⟩

theorem mem_visiting {shape : Shape} {parts : Visitor} {node : Tree} {path : Str}
    (present : node.isNull = false) (visited : wanted ∈ parts node path) :
    wanted ∈ visiting shape parts node path :=
  mem_visiting_iff.mpr ⟨present, .inr visited⟩

/-- A walk visits everything in a document that is reached. -/
theorem mem_visits_of_reaches {path : Str} (reaches : Reaches shape node trail settings entries)
    (visited : wanted ∈ entryVisits (visitors settings) (Trail.extend path trail) entries) :
    wanted ∈ visits shape node path := by
  induction reaches generalizing path with
  | here =>
    rw [visits]
    exact mem_visiting rfl visited
  | setting entry found deeper ih =>
    rw [visits]
    exact mem_visiting rfl (mem_entryVisits.mpr ⟨_, _, entry, .inr ⟨_, found, ih visited⟩⟩)
  | item found deeper ih =>
    rw [visits]
    refine mem_visiting rfl (mem_itemVisits.mpr ⟨_, _, found, ih ?_⟩)
    rwa [Nat.zero_add]
  | @member whole index node shape trail fields pairs items parts found deeper ih =>
    rw [visits]
    apply mem_visiting (isNull_of_parts? parts)
    simp only [parts]
    refine mem_memberVisits found (ih ?_)
    rwa [Nat.zero_add]
  | value entry deeper ih =>
    rw [visits]
    exact mem_visiting rfl (mem_pairVisits entry (ih visited))

end Decode

end LayeredConfig
