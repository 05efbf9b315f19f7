import LayeredConfig.Proofs.Decode.Typing
import LayeredConfig.Proofs.Loader.Result
import LayeredConfig.Proofs.Schema.Node

namespace LayeredConfig.Loader

variable {files : Files} {schema : Schema}

theorem documentAt_eq_ok_iff :
    documentAt files schema location = .ok document ↔
      ∃ bytes report, location.read files = .ok bytes ∧
        Decode.decode schema location.url bytes = .ok ⟨document, report⟩ ∧
        report.check location.url = none := by
  unfold documentAt
  constructor
  · intro loaded
    obtain ⟨bytes, content, loaded⟩ := bind_eq_ok_iff.mp loaded
    obtain ⟨⟨found, report⟩, decoded, loaded⟩ := bind_eq_ok_iff.mp loaded
    cases checked : report.check location.url with
    | some error => simp only [checked] at loaded; cases loaded
    | none =>
      simp only [checked] at loaded
      obtain rfl := Except.ok.inj loaded
      exact ⟨bytes, report, content, decoded, checked⟩
  · intro loaded
    obtain ⟨bytes, report, content, decoded, checked⟩ := loaded
    simp only [content, decoded, bind, Except.bind, checked]
    rfl

theorem documentAt_conforms (regular : schema.shape.Regular)
    (loaded : documentAt files schema location = .ok document) :
    Conforms schema.shape document := by
  obtain ⟨_, _, _, decoded, passed⟩ := documentAt_eq_ok_iff.mp loaded
  exact Decode.decode_conforms regular decoded passed

variable {loader : Loader}

theorem overlaid_conforms (regular : loader.schema.shape.Regular)
    (below : Conforms loader.schema.shape base)
    (laid : loader.overlaid files base = .ok document) : Conforms loader.schema.shape document := by
  unfold overlaid at laid
  split at laid
  · next upper loaded =>
    refine below.overlay ?_ (mapError_eq_ok_iff.mp laid)
    unfold overlayDocument at loaded
    split at loaded
    · exact documentAt_conforms regular loaded
    · cases loaded
  · split at laid
    · exact Except.ok.inj laid ▸ below
    · cases laid
  · cases laid

theorem inForce_conforms (regular : loader.schema.shape.Regular)
    (loaded : loader.inForce files = .ok document) : Conforms loader.schema.shape document := by
  obtain ⟨base, primary, loaded⟩ := bind_eq_ok_iff.mp loaded
  have below := documentAt_conforms regular primary
  split at loaded
  · exact Except.ok.inj loaded ▸ below
  · exact overlaid_conforms regular below loaded

theorem eq_of_shown (same : shown verbosity base = .ok document) : base = document := by
  unfold shown at same
  split at same
  · obtain ⟨_, -, rfl⟩ := map_eq_ok_iff.mp same
    rfl
  · exact Except.ok.inj same

theorem result_conforms (regular : loader.schema.shape.Regular) {target : Option Target}
    (loaded : loader.result files verbosity target = .ok document) :
    Conforms loader.schema.shape document := by
  cases target with
  | some target =>
    obtain ⟨location, -, loaded⟩ := bind_eq_ok_iff.mp loaded
    exact documentAt_conforms regular loaded
  | none =>
    obtain ⟨base, loaded, same⟩ := bind_eq_ok_iff.mp loaded
    exact eq_of_shown same ▸ inForce_conforms regular loaded

/-- Whatever the sources hold, a configuration that is loaded has the shape of a node's configuration
at every depth, and no container in it is of a native kind. -/
theorem loadConfig_conforms {locations : ResolvedLocations} {target : Option Target}
    (loaded : ((Loader.mk locations NodeSchema.nodeConfig).loadConfig files verbosity target
      |>.outcome verbosity).1 = .ok document) :
    Conforms NodeSchema.nodeConfig.shape document ∧
      ∀ part, Occurs part document → part.isNative = false := by
  rw [(loadConfig_ends files verbosity _ target).outcome verbosity] at loaded
  have conforms : Conforms NodeSchema.nodeConfig.shape document :=
    result_conforms NodeSchema.regular_nodeConfig loaded
  exact ⟨conforms, fun part occurs => conforms.no_native occurs⟩

/-- Locations of a primary document and an overlay that hold their content themselves. -/
def inlineLocations (primary overlay : String) : ResolvedLocations :=
  ⟨⟨primary, primary⟩, some ⟨overlay, overlay⟩, none, false, true⟩

theorem loadConfig_conforms_inline :
    ∃ document,
      (((Loader.mk (inlineLocations "data:,num_tokens:%208" "data:,hints_directory:%20~")
        NodeSchema.nodeConfig).loadConfig .empty .everything none).outcome .everything).1 =
          .ok document ∧
        Conforms NodeSchema.nodeConfig.shape document ∧
          ∀ part, Occurs part document → part.isNative = false := by
  have loads : (((Loader.mk (inlineLocations "data:,num_tokens:%208" "data:,hints_directory:%20~")
      NodeSchema.nodeConfig).loadConfig .empty .everything none).outcome .everything
        ).1.toOption.isSome = true := by decide +kernel
  obtain ⟨document, loaded⟩ := exists_ok_of_isSome loads
  exact ⟨document, loaded, loadConfig_conforms loaded⟩

end LayeredConfig.Loader
