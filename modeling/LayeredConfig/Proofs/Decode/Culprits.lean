import LayeredConfig.Proofs.Decode.SourceOrder
import LayeredConfig.Proofs.Schema.Node

namespace LayeredConfig.Decode

theorem isForm_of_misfit {visit : Visit} {misfit : Misfit}
    (trouble : visit.trouble? = some (.misfit misfit)) : visit.isForm = true := by
  cases visit with
  | form => rfl
  | _ =>
    simp only [Visit.trouble?] at trouble
    split at trouble <;> cases trouble

/-- A misfit that stops the walk has a place, and nothing with a place before it is trouble. -/
theorem Arranged.exists_first {stands : List Nat → Visit → Prop} {visits : List Visit} {misfit : Misfit}
    (arranged : Arranged stands (forms visits))
    (stopped : visits.findSome? Visit.trouble? = some (.misfit misfit)) :
    ∃ place visit, stands place visit ∧ visit.trouble? = some (.misfit misfit) ∧
      ∀ place' visit', stands place' visit' → place' < place → visit'.trouble? = none := by
  obtain ⟨before, visit, after, rfl, trouble, calm⟩ := List.findSome?_eq_some_iff.mp stopped
  obtain ⟨placed, all, sorted, exact⟩ := arranged
  have split : forms (before ++ visit :: after) = forms before ++ visit :: forms after := by
    rw [forms_append, forms, forms, forms, List.filter_cons_of_pos (isForm_of_misfit trouble)]
  rw [split] at all
  -- the places are cut where the visits are: those in front belong to visits in front
  obtain ⟨first, rest, rfl, earlier, tail⟩ := List.map_eq_append_iff.mp all
  obtain ⟨⟨place, visit⟩, rest, rfl, rfl, -⟩ := List.map_eq_cons_iff.mp tail
  refine ⟨place, visit, (exact _ _).mp (by simp), trouble, fun place' visit' stands less => ?_⟩
  obtain ⟨-, here, -⟩ := List.pairwise_append.mp sorted
  rcases List.mem_append.mp ((exact place' visit').mpr stands) with listed | listed
  · have member : visit' ∈ forms before := earlier ▸ List.mem_map.mpr ⟨_, listed, rfl⟩
    exact calm visit' (List.mem_filter.mp member).1
  · rcases List.mem_cons.mp listed with same | later
    · obtain ⟨rfl, -⟩ := Prod.mk.inj same
      exact absurd less (List.lt_irrefl _)
    · exact absurd less (List.lt_asymm ((List.pairwise_cons.mp here).1 _ later))

/-- Where only forms can be trouble, the walk is stopped by trouble that has none before it. -/
theorem Arranged.findSome?_eq {stands : List Nat → Visit → Prop} {visits : List Visit} {visit : Visit}
    {place : List Nat} {failure : WalkFailure} (arranged : Arranged stands (forms visits))
    (others : ∀ visit ∈ visits, ∀ failure, visit.trouble? = some failure → visit.isForm = true)
    (here : stands place visit) (trouble : visit.trouble? = some failure)
    (earlier : ∀ place' visit', stands place' visit' → place' < place → visit'.trouble? = none) :
    visits.findSome? Visit.trouble? = some failure := by
  obtain ⟨placed, all, sorted, exact⟩ := arranged
  obtain ⟨first, rest, rfl⟩ := List.append_of_mem ((exact place visit).mpr here)
  rw [List.map_append, List.map_cons] at all
  obtain ⟨before, tail, rfl, front, back⟩ := List.filter_eq_append_iff.mp all.symm
  obtain ⟨skipped, after, rfl, unformed, -, -⟩ := List.filter_eq_cons_iff.mp back
  refine List.findSome?_eq_some_iff.mpr ⟨before ++ skipped, visit, after, by simp, trouble, ?_⟩
  refine fun other listed => Option.eq_none_iff_forall_ne_some.mpr fun stop troubled => ?_
  have form := others other (by
    rcases List.mem_append.mp listed with member | member <;> simp [member]) stop troubled
  rcases List.mem_append.mp listed with member | member
  · have kept : other ∈ first.map (·.2) := front ▸ List.mem_filter.mpr ⟨member, form⟩
    obtain ⟨⟨place', other⟩, known, rfl⟩ := List.mem_map.mp kept
    have less := (List.pairwise_append.mp sorted).2.2 _ known _ List.mem_cons_self
    cases troubled.symm.trans (earlier place' other ((exact place' other).mp (by simp [known])) less)
  · exact unformed other member form

/-- What is met below the root of a document has a trail that begins with the name of a setting. -/
theorem trail_of_meets {settings : List (Setting Shape)} (named : ∀ setting ∈ settings, setting.name ≠ "")
    (meets : Meets (.document type settings) root trail place shape node) :
    (place = [] ∧ trail = []) ∨
      (place ≠ [] ∧ ∃ name rest, trail = .key name :: rest ∧ name ≠ "") := by
  cases meets with
  | here => exact .inl ⟨rfl, rfl⟩
  | setting entry found deeper =>
    have title := List.find?_some found
    rw [beq_iff_eq] at title
    exact .inr ⟨List.cons_ne_nil _ _, _, _, rfl, title ▸ named _ (List.mem_of_find?_eq_some found)⟩

/-- The first node, in the order of the source, that its shape does not take: before it everything is taken,
and no number is too large or too long. -/
structure FirstMisfit (whole : Shape) (root : Tree) (trail : Trail) (place : List Nat) (shape : Shape)
    (node : Tree) : Prop where
  met : Meets whole root trail place shape node
  present : node.isNull = false
  refused : ¬ shape.Takes node
  earlier : ∀ trail' place' shape' node', Meets whole root trail' place' shape' node' → place' < place →
    node'.isNull = false → shape'.Takes node' ∧ shape'.strain? node' = none

theorem trouble?_eq_none_iff {shape : Shape} (declared : shape.Declared) {node : Tree} (path : Str) :
    shape.trouble? path node = none ↔ shape.Takes node ∧ shape.strain? node = none := by
  rw [← Shape.fits_iff_takes declared, Shape.trouble?]
  cases shape.fits node <;> simp

theorem trouble?_eq_misfit_iff {shape : Shape} (declared : shape.Declared) {node : Tree} {path : Str}
    {misfit : Misfit} : shape.trouble? path node = some (.misfit misfit) ↔
      ¬ shape.Takes node ∧ misfit = ⟨path, shape.typeName, node⟩ := by
  rw [← Shape.fits_iff_takes declared, Shape.trouble?]
  cases shape.fits node <;> simp [eq_comm]

/-- An error names the first culprit: the node is the first that its shape does not take, its path is written
from the trail to it, and is empty for the root alone. In a tree that can be written there is no other error
where there is such a node, whatever was noted before it. -/
theorem ofTree_names_first_misfit {schema : Schema} {tree : Tree} (declared : schema.shape.Declared)
    (named : ∀ setting ∈ schema.settings, setting.name ≠ "") (source : String) :
    (∀ problem, ofTree schema source tree = .error (.configuration (.malformed source problem)) →
      ∃ trail place shape node, FirstMisfit schema.shape tree trail place shape node ∧
        (Trail.text trail = "" ↔ place = []) ∧
        problem = Misfit.problem ⟨Trail.text trail, shape.typeName, node⟩) ∧
    (tree.writable = true → ∀ trail place shape node,
      FirstMisfit schema.shape tree trail place shape node →
        ofTree schema source tree = .error (.configuration (.malformed source
          (Misfit.problem ⟨Trail.text trail, shape.typeName, node⟩)))) := by
  have follows := rootWalk_follows schema tree
  have written {trail : Trail} {place : List Nat} {shape : Shape} {node : Tree}
      (meets : Meets schema.shape tree trail place shape node) :
      Trail.extend "" trail = Trail.text trail ∧ (Trail.text trail = "" ↔ place = []) := by
    rcases trail_of_meets named meets with ⟨rfl, rfl⟩ | ⟨below, name, rest, rfl, first⟩
    · exact ⟨rfl, iff_of_true rfl rfl⟩
    · exact ⟨Trail.extend_key first rest, iff_of_false (by simp [Trail.text, first]) below⟩
  constructor
  · intro problem failed
    obtain ⟨stop, stopped, same⟩ := ofTree_eq_error_iff.mp failed
    cases stop with
    | fault fault => cases same
    | misfit misfit =>
      obtain ⟨place, visit, ⟨shape, trail, node, meets, present, rfl⟩, trouble, earlier⟩ :=
        arranged_visits.exists_first (follows.stopped_iff.mp stopped)
      have inner := (meets.offers "").declared declared
      obtain ⟨refused, rfl⟩ := (trouble?_eq_misfit_iff inner).mp trouble
      obtain ⟨path, root⟩ := written meets
      refine ⟨trail, place, shape, node, ⟨meets, present, refused, ?_⟩, root, ?_⟩
      · intro trail' place' shape' node' meets' less present'
        exact (trouble?_eq_none_iff ((meets'.offers "").declared declared) _).mp
          (earlier place' _ ⟨shape', trail', node', meets', present', rfl⟩ less)
      · rw [WalkFailure.toFailure] at same
        split at same
        · cases same
          rw [path]
        · cases same
  · intro writable trail place shape node first
    have inner := (first.met.offers "").declared declared
    have stopped : rootWalk schema tree = .stopped (.misfit ⟨Trail.text trail, shape.typeName, node⟩) := by
      refine follows.stopped_iff.mpr (arranged_visits.findSome?_eq (fun visit visited failure trouble => ?_)
        ⟨shape, trail, node, first.met, first.present, rfl⟩ ?_ ?_)
      · obtain ⟨inner, part, place, rfl⟩ := form_of_trouble declared writable visited trouble
        rfl
      · rw [← (written first.met).1]
        exact (trouble?_eq_misfit_iff inner).mpr ⟨first.refused, rfl⟩
      · rintro place' visit' ⟨shape', trail', node', meets', present', rfl⟩ less
        exact (trouble?_eq_none_iff ((meets'.offers "").declared declared) _).mpr
          (first.earlier trail' place' shape' node' meets' less present')
    refine ofTree_eq_error_iff.mpr ⟨_, stopped, ?_⟩
    rw [WalkFailure.toFailure, if_pos ((first.met.offers "").writable writable)]

/-- A tree with a setting that may not be null, one that is unknown, and two nodes that are not taken. -/
def crossedTree : Tree :=
  .map none [(.str "cluster_name", .scalar .null), (.str "extra", .seq none []),
    (.str "seed_provider", .map none [(.str "parameters", .map none [(.str "seeds", .seq none [])])]),
    (.str "num_tokens", .scalar (.str "many"))]

/-- Of the two nodes the first one is named, and no finding. -/
theorem ofTree_names_first_misfit_crossedTree :
    ∃ trail place shape node, FirstMisfit NodeSchema.nodeConfig.shape crossedTree trail place shape node ∧
      ofTree NodeSchema.nodeConfig "node.yaml" crossedTree = .error (.configuration (.malformed "node.yaml"
        (Misfit.problem ⟨Trail.text trail, shape.typeName, node⟩))) ∧
      Misfit.problem ⟨Trail.text trail, shape.typeName, node⟩ =
        "Cannot create property=seed_provider.parameters.seeds: expected str, got list []" := by
  have failed : ofTree NodeSchema.nodeConfig "node.yaml" crossedTree =
      .error (.configuration (.malformed "node.yaml"
        (Misfit.problem ⟨"seed_provider.parameters.seeds", "str", .seq none []⟩))) := rfl
  have declared := NodeSchema.worded_nodeConfig.declared
  have named := NodeSchema.named_nodeConfig
  obtain ⟨trail, place, shape, node, first, -, same⟩ :=
    (ofTree_names_first_misfit declared named "node.yaml").1 _ failed
  have stops := (ofTree_names_first_misfit declared named "node.yaml").2 rfl trail place shape node first
  exact ⟨trail, place, shape, node, first, stops, same.symm.trans rfl⟩

end LayeredConfig.Decode
