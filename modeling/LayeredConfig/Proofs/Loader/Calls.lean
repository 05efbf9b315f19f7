import LayeredConfig.Loader.Host
import LayeredConfig.Proofs.Loader.Result
import LayeredConfig.Proofs.Loader.Startup

namespace LayeredConfig

open Logged

namespace Host

/-- What a program asks a host for: its loader, or a document that this loads. -/
inductive Call
  | loader
  | document (target : Option Loader.Target)

inductive Reply
  | loader (loader : Loader)
  | document (document : Value)

/-- The reply that a loader gives, by the files as they are at the call. -/
def Call.reply (files : Files) (verbosity : Verbosity) (loader : Loader) : Call → Except Failure Reply
  | .loader => .ok (.loader loader)
  | .document target =>
    .document <$> ((loader.loadConfig files verbosity target).outcome verbosity).1

/-- The reply to a call, and the host after it; the host stays as it is if it finds no loader. -/
def call (host : Host) (verbosity : Verbosity) : Call → Except Failure Reply × Host
  | .loader =>
    match (host.defaultLoader.outcome verbosity).1 with
    | .ok (loader, after) => (.ok (.loader loader), after)
    | .error failure => (.error failure, host)
  | .document target =>
    match ((host.loadConfig verbosity target).outcome verbosity).1 with
    | .ok (outcome, after) => (.document <$> outcome, after)
    | .error failure => (.error failure, host)

/-- The locations as the environment and the files of the host give them now. -/
def resolved (host : Host) : Except Failure ResolvedLocations :=
  ((ResolvedLocations.ofEnvironment host.files host.environment).outcome .nothing).1

/-- The loader that answers a call: the one that is kept, or else a new one. -/
def current (host : Host) : Except Failure Loader :=
  match host.loader with
  | some loader => .ok loader
  | none => (⟨·, NodeSchema.nodeConfig⟩) <$> host.resolved

/-- The loader that a host keeps is for the configuration of a node. -/
def KeepsNode (host : Host) : Prop :=
  ∀ loader, host.loader = some loader → loader.schema = NodeSchema.nodeConfig

variable {host : Host}

theorem resolved_eq (host : Host) :
    host.resolved = ResolvedLocations.located host.files host.environment :=
  (ResolvedLocations.ofEnvironment_ends host.files host.environment).outcome .nothing

theorem defaultLoader_ends (host : Host) :
    Ends host.defaultLoader ((fun loader => (loader, { host with loader := some loader })) <$>
      host.current) := by
  unfold defaultLoader current
  cases kept : host.loader with
  | some loader =>
    have same : { host with loader := some loader } = host := by rw [← kept]
    exact same.symm ▸ ends_pure (loader, host)
  | none =>
    have finds := ResolvedLocations.ofEnvironment_ends host.files host.environment
    rw [← resolved_eq] at finds
    cases found : host.resolved with
    | error failure =>
      rw [found] at finds
      exact finds.stopped
    | ok locations =>
      rw [found] at finds
      exact finds.andThen (ends_pure _)

/-- Once a host has its loader, what the loading comes to is the outcome of the call. -/
theorem loadConfig_ends (host : Host) (verbosity : Verbosity) (target : Option Loader.Target) :
    Ends (host.loadConfig verbosity target) ((fun loader =>
      (loader.result host.files verbosity target, { host with loader := some loader })) <$>
        host.current) := by
  have made := defaultLoader_ends host
  unfold loadConfig
  cases found : host.current with
  | error failure =>
    rw [found] at made
    exact made.stopped
  | ok loader =>
    rw [found] at made
    have loads := (Loader.loadConfig_ends host.files verbosity loader target).map
      fun document => (Except.ok document : Except Failure Value)
    refine made.andThen ?_
    change Ends _ (Except.ok (loader.result host.files verbosity target,
      { host with loader := some loader }))
    cases outcome : loader.result host.files verbosity target with
    | ok document =>
      rw [outcome] at loads
      exact loads.unhandled.andThen (ends_pure _)
    | error failure =>
      rw [outcome] at loads
      exact (loads.handled _ (ends_pure (Except.error failure))).andThen (ends_pure _)

/-- A call is answered by the current loader, which the host keeps; without one nothing changes. -/
theorem call_eq (host : Host) (verbosity : Verbosity) (call : Call) :
    host.call verbosity call =
      match host.current with
      | .ok loader => (call.reply host.files verbosity loader, { host with loader := some loader })
      | .error failure => (.error failure, host) := by
  cases call with
  | loader =>
    simp only [Host.call, (defaultLoader_ends host).outcome verbosity]
    cases host.current <;> rfl
  | document target =>
    simp only [Host.call, (loadConfig_ends host verbosity target).outcome verbosity]
    cases host.current with
    | error failure => rfl
    | ok loader =>
      simp only [Call.reply, (Loader.loadConfig_ends host.files verbosity loader target).outcome verbosity]
      rfl

theorem current_of_kept {loader : Loader} (kept : host.loader = some loader) :
    host.current = .ok loader := by
  simp only [current, kept]

theorem current_of_empty (empty : host.loader = none) :
    host.current = (⟨·, NodeSchema.nodeConfig⟩) <$> host.resolved := by
  simp only [current, empty]

theorem call_of_current {loader : Loader} (found : host.current = .ok loader) (verbosity : Verbosity)
    (call : Call) : host.call verbosity call =
      (call.reply host.files verbosity loader, { host with loader := some loader }) := by
  rw [call_eq, found]

theorem call_of_failure {failure : Failure} (failed : host.current = .error failure)
    (verbosity : Verbosity) (call : Call) : host.call verbosity call = (.error failure, host) := by
  rw [call_eq, failed]

theorem keepsNode_of_empty (empty : host.loader = none) : host.KeepsNode := by
  intro loader kept
  rw [empty] at kept
  cases kept

theorem KeepsNode.current {loader : Loader} (keeps : host.KeepsNode) (found : host.current = .ok loader) :
    loader.schema = NodeSchema.nodeConfig := by
  cases kept : host.loader with
  | some other =>
    obtain rfl : other = loader := Except.ok.inj ((current_of_kept kept).symm.trans found)
    exact keeps other kept
  | none =>
    obtain ⟨locations, -, rfl⟩ := map_eq_ok_iff.mp ((current_of_empty kept).symm.trans found)
    rfl

end Host

end LayeredConfig
