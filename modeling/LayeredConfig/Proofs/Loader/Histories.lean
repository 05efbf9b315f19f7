import LayeredConfig.Proofs.Loader.Targets
import Mathlib.Data.List.Induction

/-!
A host over time. Its environment and its files change, calls are made and the loader is reset, in any
order. Each call is answered by the loader that the first call since the last reset made that could, and
by the files as they are.
-/

namespace LayeredConfig

namespace Host

/-- What happens to a host. -/
inductive Event
  | assign (environment : Environment)
  | write (place : List FileName) (bytes : List UInt8)
  | makeDirectory (place : List FileName)
  | delete (place : List FileName)
  | call (verbosity : Verbosity) (call : Call)
  | reset

/-- The host after an event. -/
def react (host : Host) : Event → Host
  | .assign environment => { host with environment := environment }
  | .write place bytes => { host with files := host.files.write place bytes }
  | .makeDirectory place => { host with files := host.files.makeDirectory place }
  | .delete place => { host with files := host.files.delete place }
  | .call verbosity call => (host.call verbosity call).2
  | .reset => host.reset

/-- The host after a history of events, the first one first. -/
def after (host : Host) (history : List Event) : Host :=
  history.foldl react host

/-- Nothing has happened yet, or the last thing was a reset. -/
def Fresh (history : List Event) : Prop :=
  history = [] ∨ ∃ earlier, history = earlier ++ [.reset]

/-- No call in a part of a history found its locations; what happened before is given too. -/
def Unresolved (host : Host) (before part : List Event) : Prop :=
  ∀ earlier verbosity call later, part = earlier ++ .call verbosity call :: later →
    ∃ failure, (host.after (before ++ earlier)).resolved = .error failure

/-- The locations that the first call since the last reset found that found any. -/
inductive FirstFound (host : Host) : List Event → ResolvedLocations → Prop
  | intro {before waiting since : List Event} {locations : ResolvedLocations} {verbosity : Verbosity}
      {asked : Call} (fresh : Fresh before) (held : .reset ∉ waiting)
      (unresolved : Unresolved host before waiting)
      (found : (host.after (before ++ waiting)).resolved = .ok locations) (kept : .reset ∉ since) :
      FirstFound host (before ++ waiting ++ .call verbosity asked :: since) locations

variable {host : Host} {locations : ResolvedLocations} {loader : Loader}

theorem after_append (host : Host) (earlier later : List Event) :
    host.after (earlier ++ later) = (host.after earlier).after later := by
  simp [after]

theorem after_concat (host : Host) (history : List Event) (event : Event) :
    host.after (history ++ [event]) = (host.after history).react event := by
  simp [after]

theorem react_call_of_resolved (empty : host.loader = none) (found : host.resolved = .ok locations)
    (verbosity : Verbosity) (call : Call) :
    (host.react (.call verbosity call)).loader = some ⟨locations, NodeSchema.nodeConfig⟩ := by
  have current : host.current = .ok ⟨locations, NodeSchema.nodeConfig⟩ :=
    (current_of_empty empty).trans (map_eq_ok_iff.mpr ⟨locations, found, rfl⟩)
  simp only [react, call_of_current current]

theorem react_call_of_unresolved {failure : Failure} (empty : host.loader = none)
    (failed : host.resolved = .error failure) (verbosity : Verbosity) (call : Call) :
    host.react (.call verbosity call) = host := by
  have unfound : host.current = .error failure :=
    (current_of_empty empty).trans (map_eq_error_iff.mpr failed)
  simp only [react, call_of_failure unfound]

/-- A reset alone takes a loader away. -/
theorem react_of_kept {event : Event} (kept : host.loader = some loader) (other : event ≠ .reset) :
    (host.react event).loader = some loader := by
  cases event with
  | call verbosity call => simp only [react, call_of_current (current_of_kept kept)]
  | reset => exact absurd rfl other
  | _ => exact kept

theorem after_of_kept {part : List Event} (kept : host.loader = some loader) (held : .reset ∉ part) :
    (host.after part).loader = some loader := by
  induction part generalizing host with
  | nil => exact kept
  | cons event part ih =>
    have other : event ≠ .reset := by
      rintro rfl
      exact held List.mem_cons_self
    exact ih (react_of_kept kept other) fun later => held (List.mem_cons_of_mem _ later)

theorem after_of_fresh {history : List Event} (empty : host.loader = none) (fresh : Fresh history) :
    (host.after history).loader = none := by
  rcases fresh with rfl | ⟨earlier, rfl⟩
  · exact empty
  · rw [after_concat]
    rfl

/-- As long as no call finds its locations a host has no loader. -/
theorem after_of_unresolved {before waiting : List Event} (empty : (host.after before).loader = none)
    (unresolved : Unresolved host before waiting) :
    (host.after (before ++ waiting)).loader = none := by
  induction waiting using List.reverseRecOn with
  | nil => simpa using empty
  | append_singleton waiting event ih =>
    have still : (host.after (before ++ waiting)).loader = none := by
      refine ih fun earlier verbosity call later split => ?_
      exact unresolved earlier verbosity call (later ++ [event]) (by simp [split])
    rw [← List.append_assoc, after_concat]
    cases event with
    | call verbosity call =>
      obtain ⟨failure, failed⟩ := unresolved waiting verbosity call [] rfl
      rw [react_call_of_unresolved still failed]
      exact still
    | reset => rfl
    | _ => exact still

/-- From the call on that found them, the locations make the loader of the host. -/
theorem FirstFound.loader_eq {history : List Event} (empty : host.loader = none)
    (first : FirstFound host history locations) :
    (host.after history).loader = some ⟨locations, NodeSchema.nodeConfig⟩ := by
  obtain ⟨fresh, held, unresolved, found, kept⟩ := first
  have waits := after_of_unresolved (after_of_fresh empty fresh) unresolved
  have made := react_call_of_resolved waits found
  rw [after_append]
  exact (after_of_kept (made _ _) kept :)

theorem FirstFound.unique {history : List Event} {locations' : ResolvedLocations}
    (empty : host.loader = none) (first : FirstFound host history locations)
    (first' : FirstFound host history locations') : locations = locations' := by
  have same := (first.loader_eq empty).symm.trans (first'.loader_eq empty)
  exact congrArg Loader.locations (Option.some.inj same)

theorem FirstFound.concat {history : List Event} {event : Event}
    (first : FirstFound host history locations) (other : event ≠ .reset) :
    FirstFound host (history ++ [event]) locations := by
  obtain ⟨fresh, held, unresolved, found, kept⟩ := first
  rw [List.append_assoc, List.cons_append]
  refine .intro fresh held unresolved found fun member => ?_
  rcases List.mem_append.mp member with earlier | last
  · exact kept earlier
  · exact other (List.mem_singleton.mp last).symm

theorem unresolved_nil (host : Host) (before : List Event) : Unresolved host before [] :=
  fun _ _ _ _ split => by simp at split

theorem Unresolved.concat {before waiting : List Event} {event : Event}
    (unresolved : Unresolved host before waiting)
    (last : ∀ verbosity call, event = .call verbosity call →
      ∃ failure, (host.after (before ++ waiting)).resolved = .error failure) :
    Unresolved host before (waiting ++ [event]) := by
  intro earlier verbosity call later split
  rcases List.eq_nil_or_concat later with rfl | ⟨initial, final, rfl⟩
  · obtain ⟨rfl, same⟩ := List.append_inj' split rfl
    exact last verbosity call (List.cons.inj same).1
  · rw [List.concat_eq_append, ← List.cons_append, ← List.append_assoc] at split
    exact unresolved earlier verbosity call initial (List.append_inj' split rfl).1

/-- A host has no loader as long as no call since the last reset has found its locations. -/
def Waiting (host : Host) (history : List Event) : Prop :=
  ∃ before waiting, history = before ++ waiting ∧ Fresh before ∧ .reset ∉ waiting ∧
    Unresolved host before waiting

/-- What the loader of a host says of the history. -/
def Accounted (host : Host) (history : List Event) : Option Loader → Prop
  | none => Waiting host history
  | some loader => ∃ locations, loader = ⟨locations, NodeSchema.nodeConfig⟩ ∧
      FirstFound host history locations

theorem Waiting.concat {history : List Event} {event : Event} (waiting : Waiting host history)
    (other : event ≠ .reset) (last : ∀ verbosity call, event = .call verbosity call →
      ∃ failure, (host.after history).resolved = .error failure) :
    Waiting host (history ++ [event]) := by
  obtain ⟨before, part, rfl, fresh, held, unresolved⟩ := waiting
  refine ⟨before, part ++ [event], List.append_assoc _ _ _, fresh, fun member => ?_,
    unresolved.concat last⟩
  rcases List.mem_append.mp member with earlier | same
  · exact held earlier
  · exact other (List.mem_singleton.mp same).symm

theorem Accounted.concat {history : List Event} (event : Event)
    (account : Accounted host history (host.after history).loader) :
    Accounted host (history ++ [event]) (host.after (history ++ [event])).loader := by
  by_cases reset : event = .reset
  · rw [after_concat, reset]
    exact ⟨history ++ [.reset], [], by simp, .inr ⟨history, rfl⟩, List.not_mem_nil,
      unresolved_nil _ _⟩
  · cases now : (host.after history).loader with
    | some loader =>
      rw [now] at account
      obtain ⟨locations, made, first⟩ := account
      rw [after_concat, react_of_kept now reset]
      exact ⟨locations, made, first.concat reset⟩
    | none =>
      rw [now] at account
      cases event with
      | call verbosity call =>
        cases resolved : (host.after history).resolved with
        | ok locations =>
          rw [after_concat, react_call_of_resolved now resolved]
          obtain ⟨before, waiting, rfl, fresh, held, unresolved⟩ := account
          exact ⟨locations, rfl, .intro fresh held unresolved resolved List.not_mem_nil⟩
        | error failure =>
          rw [after_concat, react_call_of_unresolved now resolved, now]
          exact Waiting.concat account reset fun _ _ _ => ⟨failure, resolved⟩
      | reset => exact absurd rfl reset
      | _ =>
        rw [after_concat]
        exact now.symm ▸ Waiting.concat account reset nofun

/-- After any history the loader of a host is that of the first call since the last reset that found its
locations, and it has none if there was no such call. -/
theorem accounted_after (empty : host.loader = none) (history : List Event) :
    Accounted host history (host.after history).loader := by
  induction history using List.reverseRecOn with
  | nil =>
    rw [show (host.after []).loader = none from empty]
    exact ⟨[], [], rfl, .inl rfl, List.not_mem_nil, unresolved_nil _ _⟩
  | append_singleton history event ih => exact ih.concat event

/-- The loader that a host has after a call has answered it. -/
theorem current_of_react_call {verbosity : Verbosity} {call : Call}
    (kept : (host.react (.call verbosity call)).loader = some loader) : host.current = .ok loader := by
  simp only [react] at kept
  cases found : host.current with
  | ok other =>
    rw [call_of_current found] at kept
    exact congrArg Except.ok (Option.some.inj kept)
  | error failure =>
    rw [call_of_failure found] at kept
    exact absurd ((current_of_kept kept).symm.trans found) nofun

/-- A host that has no loader after a call has found no locations at the call. -/
theorem unresolved_of_react_call {verbosity : Verbosity} {call : Call}
    (none : (host.react (.call verbosity call)).loader = none) :
    ∃ failure, host.resolved = .error failure ∧ host.call verbosity call = (.error failure, host) := by
  simp only [react] at none
  cases found : host.current with
  | ok loader =>
    rw [call_of_current found] at none
    cases none
  | error failure =>
    rw [call_of_failure found] at none
    have failed := map_eq_error_iff.mp ((current_of_empty none).symm.trans found)
    exact ⟨failure, failed, call_of_failure found verbosity call⟩

/-- Asked for its loader, a host gives this one and stays as it is. -/
def Gives (host : Host) (loader : Loader) : Prop :=
  ∀ verbosity, host.call verbosity .loader = (.ok (.loader loader), host)

theorem gives_of_kept (kept : host.loader = some loader) : host.Gives loader := by
  intro verbosity
  have same : { host with loader := some loader } = host := by rw [← kept]
  rw [call_of_current (current_of_kept kept), same]
  rfl

/-- The locations that answer a call are those of the first call since the last reset that found any, the
call itself included, and the files are read as they are now. From then on the host gives out that one
loader until the next reset. If no such call found any, this one has looked for them in vain, in the
environment and the files as they are now, and it changes nothing. -/
theorem call_follows_history {origin : Host} {history : List Event} (empty : origin.loader = none)
    (reached : origin.after history = host) (verbosity : Verbosity) (call : Call) :
    (∀ locations, FirstFound origin (history ++ [.call verbosity call]) locations →
      (host.call verbosity call).1 =
          call.reply host.files verbosity ⟨locations, NodeSchema.nodeConfig⟩ ∧
        ∀ later, .reset ∉ later →
          ((host.react (.call verbosity call)).after later).Gives ⟨locations, NodeSchema.nodeConfig⟩) ∧
      ((¬ ∃ locations, FirstFound origin (history ++ [.call verbosity call]) locations) →
        ∃ failure, host.resolved = .error failure ∧
          host.call verbosity call = (.error failure, host)) := by
  have step : origin.after (history ++ [.call verbosity call]) = host.react (.call verbosity call) := by
    rw [after_concat, reached]
  constructor
  · intro locations first
    have kept := first.loader_eq empty
    rw [step] at kept
    constructor
    · rw [call_of_current (current_of_react_call kept)]
    · intro later held
      exact gives_of_kept (after_of_kept kept held)
  · intro unfound
    have account := accounted_after empty (history ++ [.call verbosity call])
    rw [step] at account
    cases now : (host.react (.call verbosity call)).loader with
    | none => exact unresolved_of_react_call now
    | some loader =>
      rw [now] at account
      obtain ⟨locations, -, first⟩ := account
      exact absurd ⟨locations, first⟩ unfound

/-- A host is asked for its loader in vain, and then its variables are set. -/
def vainHistory : List Event :=
  [.call .nothing .loader, .assign [(Environment.primaryVariable, "data:,num_tokens:%208")]]

/-- After the next call the variables are taken away again. -/
def lateHistory : List Event :=
  vainHistory ++ [.call .nothing .loader, .assign []]

theorem call_follows_history_lateHistory :
    ∃ locations, FirstFound bareHost (lateHistory ++ [.call .nothing (.document none)]) locations ∧
      ((bareHost.after lateHistory).call .nothing (.document none)).1 =
        Call.reply (bareHost.after lateHistory).files .nothing ⟨locations, NodeSchema.nodeConfig⟩
          (.document none) := by
  have fails : bareHost.resolved.toOption.isSome = false := by decide +kernel
  have finds : (bareHost.after vainHistory).resolved.toOption.isSome = true := by decide +kernel
  obtain ⟨locations, found⟩ := exists_ok_of_isSome finds
  have unresolved : Unresolved bareHost [] vainHistory := by
    refine ((unresolved_nil bareHost []).concat fun _ _ _ => ?_).concat nofun
    cases outcome : bareHost.resolved with
    | error failure => exact ⟨failure, outcome⟩
    | ok locations =>
      rw [outcome] at fails
      cases fails
  have first : FirstFound bareHost
      (vainHistory ++ .call .nothing .loader :: [.assign [], .call .nothing (.document none)]) locations :=
    .intro (.inl rfl) (by simp) unresolved found (by simp)
  exact ⟨locations, first, ((call_follows_history rfl rfl .nothing (.document none)).1 locations first).1⟩

end Host

end LayeredConfig
