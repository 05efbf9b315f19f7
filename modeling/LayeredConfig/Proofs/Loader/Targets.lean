import LayeredConfig.Proofs.Loader.Calls

namespace LayeredConfig

namespace Loader

variable {files files' : Files} {schema : Schema} {location : Location}

/-- Of all the files, a document depends on what its location holds. -/
theorem documentAt_congr (same : location.read files = location.read files') :
    documentAt files schema location = documentAt files' schema location := by
  simp only [documentAt, same]

end Loader

namespace Host

/-- A host has its loader, or its locations are found when it asks for them. -/
def Ready (host : Host) : Prop :=
  host.loader.isSome = true ∨ ∃ locations, host.resolved = .ok locations

/-- A target is one resource on two hosts, and reading it comes to the same on both. -/
structure SameResource (host host' : Host) (target : Loader.Target) : Prop where
  named : target.resolve host.files = target.resolve host'.files
  content : ∀ location, target.resolve host.files = .ok location →
    location.read host.files = location.read host'.files

variable {host host' : Host} {target : Loader.Target}

theorem Ready.current (ready : host.Ready) : ∃ loader, host.current = .ok loader := by
  cases kept : host.loader with
  | some loader => exact ⟨loader, current_of_kept kept⟩
  | none =>
    rcases ready with present | ⟨locations, found⟩
    · rw [kept] at present
      cases present
    · exact ⟨_, (current_of_empty kept).trans (map_eq_ok_iff.mpr ⟨locations, found, rfl⟩)⟩

/-- A ready host answers for a target with the document there. -/
theorem call_target (keeps : host.KeepsNode) (ready : host.Ready) (verbosity : Verbosity) :
    (host.call verbosity (.document (some target))).1 =
      .document <$> ((target.resolve host.files).mapError .fault >>=
        Loader.documentAt host.files NodeSchema.nodeConfig) := by
  obtain ⟨loader, found⟩ := ready.current
  have loads := (Loader.loadConfig_ends host.files verbosity loader (some target)).outcome verbosity
  simp only [call_of_current found, Call.reply, loads, Loader.result, keeps.current found]

/-- Two hosts that are ready answer for a resource alike, whatever else they differ in. A host without a
loader that does not find its locations answers with the reason for that. -/
theorem call_target_independent (verbosity verbosity' : Verbosity) (keeps : host.KeepsNode)
    (keeps' : host'.KeepsNode) (same : SameResource host host' target) :
    (host.Ready → host'.Ready → (host.call verbosity (.document (some target))).1 =
        (host'.call verbosity' (.document (some target))).1) ∧
      ∀ failure, host.loader = none → host.resolved = .error failure →
        (host.call verbosity (.document (some target))).1 = .error failure := by
  constructor
  · intro ready ready'
    rw [call_target keeps ready, call_target keeps' ready', ← same.named]
    refine congrArg (Reply.document <$> ·) (bind_congr_of_ok fun location place => ?_)
    exact Loader.documentAt_congr (same.content location (mapError_eq_ok_iff.mp place))
  · intro failure empty failed
    have unfound : host.current = .error failure :=
      (current_of_empty empty).trans (map_eq_error_iff.mpr failed)
    rw [call_of_failure unfound]

/-- A resource that holds its content itself. -/
def inlineTarget : Loader.Target :=
  .location ⟨"data:,cluster_name:%20X", "inline.yaml"⟩

/-- A host whose primary document is named by its environment. -/
def namingHost : Host :=
  ⟨.empty, [(Environment.primaryVariable, "data:,num_tokens:%208")], none⟩

/-- A host with nothing to load. -/
def bareHost : Host :=
  ⟨.empty, [], none⟩

/-- A host that has found its locations in an environment that is gone. -/
def settledHost : Host :=
  ⟨{ home := [], entries := [(["node.yaml".toList], .file [])] }, [(Environment.disableVariable, "maybe")],
    some ⟨⟨⟨"data:,", "data:,"⟩, none, none, true, false⟩, NodeSchema.nodeConfig⟩⟩

theorem sameResource_inlineTarget (files files' : Files) (environment environment' : Environment)
    (loader loader' : Option Loader) :
    SameResource ⟨files, environment, loader⟩ ⟨files', environment', loader'⟩ inlineTarget where
  named := rfl
  content := by
    rintro _ ⟨⟩
    rfl

theorem call_target_independent_settledHost :
    namingHost.Ready ∧ settledHost.Ready ∧
      (namingHost.call .nothing (.document (some inlineTarget))).1 =
        (settledHost.call .everything (.document (some inlineTarget))).1 := by
  have ready : namingHost.Ready := by
    have finds : namingHost.resolved.toOption.isSome = true := by decide +kernel
    exact .inr (exists_ok_of_isSome finds)
  have kept : settledHost.Ready := .inl rfl
  have keeps : settledHost.KeepsNode := by
    rintro _ ⟨⟩
    rfl
  exact ⟨ready, kept, (call_target_independent .nothing .everything (keepsNode_of_empty rfl) keeps
    (sameResource_inlineTarget _ _ _ _ _ _)).1 ready kept⟩

/-- A document that loads on one host does not load on another one where the primary document is not
found, though it is there all the same. -/
theorem primary_matters_for_target :
    ¬ ∀ (host host' : Host) (verbosity : Verbosity) (target : Loader.Target), host.KeepsNode →
      host'.KeepsNode → SameResource host host' target →
        (host.call verbosity (.document (some target))).1 =
          (host'.call verbosity (.document (some target))).1 := by
  intro independent
  have loads : (namingHost.call .nothing (.document (some inlineTarget))).1.toOption.isSome = true := by
    decide +kernel
  have fails : (bareHost.call .nothing (.document (some inlineTarget))).1.toOption.isSome = false := by
    decide +kernel
  rw [independent namingHost bareHost .nothing inlineTarget (keepsNode_of_empty rfl)
    (keepsNode_of_empty rfl) (sameResource_inlineTarget _ _ _ _ _ _), fails] at loads
  cases loads

end Host

end LayeredConfig
