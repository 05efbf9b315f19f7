import LayeredConfig.NodeSchema
import LayeredConfig.Proofs.Decode.Offers
import LayeredConfig.Proofs.Results

namespace LayeredConfig

/-- Shapes of single values: texts, numbers and truth values. -/
def Shape.isScalar : Shape → Bool
  | .str => true
  | .int => true
  | .float => true
  | .bool => true
  | _ => false

def Tree.isCollection : Tree → Bool
  | .scalar _ => false
  | _ => true

/-- Whether a collection is taken for a text: sets and tuples are. -/
def Shape.spells : Shape → Tree → Bool
  | .str, .set _ => true
  | .str, .tuple _ => true
  | _, _ => false

namespace Decode

/-- The walk over a tree comes to a node: nothing that it looks at before that stops it. -/
def ComesTo (schema : Schema) (tree : Tree) (shape : Shape) (node : Tree) (path : Str) : Prop :=
  ∃ before after, visits schema.shape tree "" = before ++ .form shape path node :: after ∧
    ∀ visit ∈ before, visit.trouble? = none

theorem trouble?_of_collection {shape : Shape} {node : Tree} (path : Str)
    (scalar : shape.isScalar = true) (collection : node.isCollection = true)
    (unspelled : shape.spells node = false) :
    shape.trouble? path node = some (.misfit ⟨path, shape.typeName, node⟩) := by
  have unfit : shape.fits node = false := by
    cases node <;> cases shape <;>
      simp_all [Shape.isScalar, Tree.isCollection, Shape.spells, Shape.fits]
  rw [Shape.trouble?, unfit, if_neg Bool.false_ne_true]

theorem ComesTo.stopped {schema : Schema} {tree node : Tree} {shape : Shape} {path : Str}
    {failure : WalkFailure} (comes : ComesTo schema tree shape node path)
    (trouble : shape.trouble? path node = some failure) : rootWalk schema tree = .stopped failure := by
  obtain ⟨before, after, split, calm⟩ := comes
  refine (rootWalk_follows schema tree).stopped_iff.mpr ?_
  rw [split, List.findSome?_append, List.findSome?_eq_none_iff.mpr calm, Option.none_or,
    List.findSome?_cons]
  simp only [Visit.trouble?, trouble]

/-- A collection under the shape of a single value is refused wherever it stands: there is no result,
and if nothing before it is refused, the error names its path. Only a set or a tuple under a text is
no error but becomes the text that it is displayed as. -/
theorem decode_refuses_collections {schema : Schema} {bytes : List UInt8} {tree : Tree}
    (read : Yaml.read? schema.shape.depth bytes = .ok (some tree)) (source : String) :
    (∀ shape node path, shape.isScalar = true → node.isCollection = true → shape.spells node = false →
      Offers schema.shape tree "" shape node path →
        (∀ result, decode schema source bytes ≠ .ok result) ∧
        (ComesTo schema tree shape node path → node.writable = true →
          decode schema source bytes = .error (.configuration
            (.malformed source (Misfit.problem ⟨path, shape.typeName, node⟩))))) ∧
    ∀ node path, Shape.spells .str node = true → node.writable = true →
      reader .str node path = .built (.str (String.ofList node.display)) [] := by
  have decoded : decode schema source bytes = ofTree schema source tree := by
    simp only [decode, read]
  rw [decoded]
  constructor
  · intro shape node path scalar collection unspelled offers
    have trouble := trouble?_of_collection path scalar collection unspelled
    constructor
    · intro result accepted
      obtain ⟨findings, built, -⟩ := ofTree_eq_ok_iff.mp accepted
      have present : node.isNull = false := by
        cases node <;> simp_all [Tree.isCollection, Tree.isNull]
      have calm := (rootWalk_follows schema tree).calm built _ (form_mem_visits.mpr ⟨offers, present⟩)
      cases calm.symm.trans trouble
    · intro comes writable
      refine ofTree_eq_error_iff.mpr ⟨_, comes.stopped trouble, ?_⟩
      rw [WalkFailure.toFailure, if_pos writable]
  · intro node path spelled writable
    have present : node.isNull = false := by
      cases node <;> simp_all [Shape.spells, Tree.isNull]
    rw [reader, orNull_of_present present]
    cases node <;> simp_all [Shape.spells, readStr, textOf, Walk.accept]

/-- A source with a dictionary for a whole number. -/
def nestedPort : List UInt8 :=
  Text.encodeUtf8 "storage_port: \x7ba: 1\x7d".toList

/-- Whether this is what the source is read as. -/
def isNestedPort : Except Yaml.Failure (Option Tree) → Bool
  | .ok (some (.map (some 0) [(.str "storage_port", .map (some 2) [(.str "a", .scalar (.int 1))])])) => true
  | _ => false

theorem decode_refuses_collections_nestedPort :
    decode NodeSchema.nodeConfig "node.yaml" nestedPort = .error (.configuration (.malformed "node.yaml"
      (Misfit.problem ⟨"storage_port", "int", .map (some 2) [(.str "a", .scalar (.int 1))]⟩))) := by
  have parsed : isNestedPort (Yaml.read? NodeSchema.nodeConfig.shape.depth nestedPort) = true := by
    decide +kernel
  unfold isNestedPort at parsed
  split at parsed
  · next read =>
    refine ((decode_refuses_collections read "node.yaml").1 .int _ "storage_port" rfl rfl rfl ?_).2
      ⟨[.form NodeSchema.nodeConfig.shape "" _, .entry (some (NodeSchema.whole "storage_port" 7000))
        "storage_port" (.str "storage_port") _], [], rfl, ?_⟩ (by decide +kernel)
    · exact .setting List.mem_cons_self rfl .here
    · intro visit before
      rcases List.mem_pair.mp before with rfl | rfl <;> rfl
  · cases parsed

/-- A source with a set for a text. -/
def bracedName : List UInt8 :=
  Text.encodeUtf8 "cluster_name: !!set \x7ba\x7d".toList

/-- Whether this is what the source is read as. -/
def isBracedName : Except Yaml.Failure (Option Tree) → Bool
  | .ok (some (.map (some 0) [(.str "cluster_name", .set [.str "a"])])) => true
  | _ => false

/-- A set under a text is taken, without any finding, for the text that it is displayed as. -/
theorem bracedName_is_taken :
    ∃ tree result slots, Yaml.read? NodeSchema.nodeConfig.shape.depth bracedName = .ok (some tree) ∧
      Offers NodeSchema.nodeConfig.shape tree "" .str (.set [.str "a"]) "cluster_name" ∧
      decode NodeSchema.nodeConfig "node.yaml" bracedName = .ok result ∧
      result.document = .document "NodeConfig" slots ∧ result.report = .empty ∧
      Slot.find? "cluster_name" slots = some ⟨"cluster_name", true, .str "\x7b'a'\x7d"⟩ := by
  have parsed : isBracedName (Yaml.read? NodeSchema.nodeConfig.shape.depth bracedName) = true := by
    decide +kernel
  unfold isBracedName at parsed
  split at parsed
  · next read =>
    have decoded : decode NodeSchema.nodeConfig "node.yaml" bracedName =
        ofTree NodeSchema.nodeConfig "node.yaml" (.map (some 0) [(.str "cluster_name", .set [.str "a"])]) := by
      simp only [decode, read]
    exact ⟨_, _, _, read, .setting List.mem_cons_self rfl .here, decoded.trans rfl, rfl, rfl, rfl⟩
  · cases parsed

end Decode

end LayeredConfig
