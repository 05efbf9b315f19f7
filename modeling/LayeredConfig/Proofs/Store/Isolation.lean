import LayeredConfig.Decode
import LayeredConfig.NodeSchema
import LayeredConfig.Proofs.Store.Calls
import LayeredConfig.Proofs.Store.PlainForms

/-!
Documents that come into being by decoding, by construction from values of their own and by deep copies
have no object in common, whatever is written through them one after the other. So a write through one
document never shows in another one.
-/

namespace LayeredConfig

open Step

/-- Where a write takes what it gives: it is made for the write, or a part of the same document. -/
inductive Source
  | fresh (value : Value)
  | part (path : List Value)

/-- What a write gives to a method. -/
inductive Given
  | item (source : Source)
  | slice (start stop step : Value)

/-- A change of what a path leads to: an assignment to a setting, or a call. Explicit assignments are
calls of a method of documents. -/
inductive Write
  | assign (name : Str) (source : Source)
  | call (method : Method) (arguments : List Given)
  | update (arguments : List Given) (named : List (Str × Source))

/-- The part of a document that a path leads to. -/
def partOf (document : Item) (path : List Value) : Step Item :=
  follow document (path.map .value)

def Source.item (document : Item) : Source → Step Item
  | .fresh value => place value
  | .part path => partOf document path

def Given.argument (document : Item) : Given → Step Argument
  | .item source => .item <$> source.item document
  | .slice start stop step => return .slice (.value start) (.value stop) (.value step)

/-- A write on what its path leads to. -/
def Write.onto (document target : Item) : Write → Step Unit
  | .assign name source => do Step.assign target name (← source.item document)
  | .call method arguments => do
    let _ ← Step.call target method (← arguments.mapM (Given.argument document))
  | .update arguments named => do
    let arguments ← arguments.mapM (Given.argument document)
    let named ← named.mapM fun entry => (entry.1, ·) <$> entry.2.item document
    let _ ← updateNamed target arguments named

def Write.step (document : Item) (path : List Value) (write : Write) : Step Unit := do
  write.onto document (← partOf document path)

/-- A store and the documents in it, the oldest first. -/
structure World where
  store : Store
  documents : List Item

/-- What happens to documents. -/
inductive Action
  | decode (source : String) (bytes : List UInt8)
  | construct (values : List (Str × Value))
  | copy (original : Nat)
  | write (document : Nat) (path : List Value) (write : Write)

def Action.Writes (number : Nat) : Action → Prop
  | .write document _ _ => document = number
  | _ => False

/-- A new document of the configuration of a node, with objects made for its values. -/
def construction (values : List (Str × Value)) : Step Item := do
  let values ← values.mapM fun entry => (entry.1, ·) <$> place entry.2
  return .object (← Document.construct NodeSchema.nodeConfig values)

namespace World

def start : World :=
  ⟨.empty, []⟩

/-- The world after a step that makes a document; a fault makes none and keeps what was done before it. -/
def adopt (world : World) (make : Step Item) : World :=
  match make.run.run world.store with
  | (.ok document, store) => ⟨store, world.documents ++ [document]⟩
  | (.error _, store) => ⟨store, world.documents⟩

def act (world : World) : Action → World
  | .decode source bytes =>
    match Decode.decode NodeSchema.nodeConfig source bytes with
    | .ok result => world.adopt (place result.document)
    | .error _ => world
  | .construct values => world.adopt (construction values)
  | .copy original =>
    match world.documents[original]? with
    | some document => world.adopt (deepCopy document)
    | none => world
  | .write number path write =>
    match world.documents[number]? with
    | some document => ⟨((write.step document path).run.run world.store).2, world.documents⟩
    | none => world

/-- The world after several actions, the first one first. -/
def run (world : World) (actions : List Action) : World :=
  actions.foldl act world

end World

section writing

variable {region : Region} {document : Item}

theorem spares_partOf (inside : document.Within region) (path : List Value) :
    Spares region (partOf document path) (Item.Within region) :=
  spares_follow inside (within_map_value path)

theorem Source.spares_item (inside : document.Within region) (source : Source) :
    Spares region (source.item document) (Item.Within region) := by
  cases source with
  | fresh value => exact spares_place region value
  | part path => exact spares_partOf inside path

theorem Source.grows_item (document : Item) (source : Source) : Grows (source.item document) :=
  (source.spares_item document.within_all).grows

theorem Given.spares_argument (inside : document.Within region) (given : Given) :
    Spares region (given.argument document) (Argument.Within region) := by
  cases given with
  | item source => exact (source.spares_item inside).map fun _ here => here
  | slice start stop step => exact (quiet_pure ⟨trivial, trivial, trivial⟩).spares

theorem Given.spares_arguments (inside : document.Within region) (arguments : List Given) :
    Spares region (arguments.mapM (Given.argument document)) fun arguments =>
      ∀ argument ∈ arguments, argument.Within region :=
  spares_mapM (fun given _ => (given.spares_argument document.within_all).grows)
    fun given _ => given.spares_argument inside

theorem Source.spares_entries (inside : document.Within region) (named : List (Str × Source)) :
    Spares region (named.mapM fun entry => (entry.1, ·) <$> entry.2.item document) fun entries =>
      ∀ entry ∈ entries, entry.2.Within region :=
  spares_mapM (fun entry _ => (entry.2.grows_item document).map _)
    fun entry _ => (entry.2.spares_item inside).map fun _ here => here

theorem Argument.within_all (argument : Argument) : argument.Within fun _ => True := by
  cases argument with
  | item item => exact item.within_all
  | slice start stop step => exact ⟨start.within_all, stop.within_all, step.within_all⟩

theorem Write.spares_onto {target : Item} (inside : document.Within region) (owned : target.Within region)
    (write : Write) : Spares region (write.onto document target) fun _ => True := by
  cases write with
  | assign name source =>
    have grows (item : Item) : Grows (Step.assign target name item) :=
      (quiet_assign target.within_all name item.within_all).spares.grows
    exact (source.spares_item inside).bind grows fun _ within => (quiet_assign owned name within).spares
  | call method arguments =>
    have grows (arguments : List Argument) : Grows (Step.call target method arguments) :=
      (spares_call method target.within_all fun argument _ => argument.within_all).grows
    refine (Given.spares_arguments inside arguments).bind (fun _ => (grows _).andPure _) ?_
    exact fun _ given => (spares_call method owned given).andPure fun _ _ => trivial
  | update arguments named =>
    have grows (arguments : List Argument) (named : List (Str × Item)) :
        Grows (updateNamed target arguments named) :=
      (quiet_updateNamed target.within_all (fun argument _ => argument.within_all)
        fun entry _ => entry.2.within_all).spares.grows
    have growsNamed : Grows (named.mapM fun entry => (entry.1, ·) <$> entry.2.item document) :=
      (Source.spares_entries document.within_all named).grows
    refine (Given.spares_arguments inside arguments).bind
      (fun _ => growsNamed.bind fun _ => (grows _ _).andPure _) fun arguments given => ?_
    refine (Source.spares_entries inside named).bind (fun _ => (grows _ _).andPure _) fun named within => ?_
    exact (quiet_updateNamed owned given within).spares.andPure fun _ _ => trivial

/-- A write stays among the objects of its document and those that it makes. -/
theorem Write.spares_step (inside : document.Within region) (path : List Value) (write : Write) :
    Spares region (write.step document path) fun _ => True :=
  (spares_partOf inside path).bind
    (fun target => (write.spares_onto document.within_all target.within_all).grows)
    fun _ owned => write.spares_onto inside owned

theorem spares_construction (region : Region) (values : List (Str × Value)) :
    Spares region (construction values) (Item.Within region) := by
  have grows (values : List (Str × Item)) : Grows (Document.construct NodeSchema.nodeConfig values) :=
    (Document.spares_construct _ _ fun pair _ => pair.2.within_all).grows
  have placed : Spares region (values.mapM fun entry => (entry.1, ·) <$> place entry.2) fun entries =>
      ∀ entry ∈ entries, entry.2.Within region :=
    spares_mapM (fun entry _ => (grows_place entry.2).map _)
      fun entry _ => (spares_place region entry.2).map fun _ here => here
  refine placed.bind (fun _ => (grows _).andPure _) fun entries within => ?_
  exact (Document.spares_construct region _ within).andPure fun _ inside => inside

end writing

/-- A region with the objects that a later store has more. -/
def Region.withNew (region : Region) (store later : Store) : Region :=
  fun identity => region identity ∨ (store.cells.length ≤ identity ∧ identity < later.cells.length)

/-- A step that works wherever it finds room needs no more of it than the objects that it makes. -/
theorem Step.Spares.withNew {step : Step α} {good : Region → α → Prop} {own : Region}
    {store later : Store} {result : Except Fault α} (closed : store.Closed own)
    (spares : ∀ region : Region, (∀ identity, own identity → region identity) →
      Spares region step (good region)) (run : step.run.run store = (result, later)) :
    store.cells.length ≤ later.cells.length ∧ store.Worked (own.withNew store later) later ∧
      ∀ value, result = .ok value → good (own.withNew store later) value := by
  have room : store.Closed (own.withNew store later) := by
    intro identity cell here found item listed
    -- An object that is still to be made has no content with items.
    have old : own identity := here.resolve_right fun new => by
      rw [Store.read?_eq_none_of_le new.1] at found
      cases found
    exact (closed identity cell old found item listed).imp fun _ => .inl
  obtain ⟨grown, work⟩ := spares (own.withNew store later) (fun _ => .inl) store result later run room
  obtain ⟨worked, answer⟩ := work fun identity new bound => .inr ⟨new, bound⟩
  exact ⟨grown, worked, answer⟩

namespace World

variable {world after : World}

/-- The document with a number has an object. -/
def Owns (world : World) (number : Nat) (identity : Identity) : Prop :=
  ∃ document, world.documents[number]? = some document ∧ world.store.Owned document identity

/-- All objects of documents are there, and each belongs to one document only. -/
structure Separate (world : World) : Prop where
  present : ∀ number identity, world.Owns number identity → identity < world.store.cells.length
  apart : ∀ number other identity, world.Owns number identity → world.Owns other identity → number = other

/-- The work of an action: one document, old or new, has its objects in a region that no other document
has objects in, and nothing happens outside it. -/
structure Turn (world after : World) (actor : Nat) (region : Region) : Prop where
  grown : world.store.cells.length ≤ after.store.cells.length
  worked : world.store.Worked region after.store
  present : ∀ identity, region identity → identity < after.store.cells.length
  foreign : ∀ number identity, number ≠ actor → world.Owns number identity → ¬ region identity
  others : ∀ number, number ≠ actor → after.documents[number]? = world.documents[number]?
  inside : ∀ document, after.documents[actor]? = some document → document.Within region

namespace Turn

variable {actor number : Nat} {region : Region} {identity : Identity}

theorem keeps {document : Item} (turn : Turn world after actor region) (other : number ≠ actor)
    (known : world.documents[number]? = some document) : world.store.Keeps after.store document := by
  apply turn.worked.keeps turn.grown
  intro identity owned
  exact turn.foreign number identity other ⟨document, known, owned⟩

theorem owned_before (turn : Turn world after actor region) (other : number ≠ actor)
    (owns : after.Owns number identity) : world.Owns number identity := by
  obtain ⟨document, known, owned⟩ := owns
  rw [turn.others number other] at known
  exact ⟨document, known, ((turn.keeps other known).owned_iff identity).mp owned⟩

theorem owned_inside (turn : Turn world after actor region) (owns : after.Owns actor identity) :
    region identity := by
  obtain ⟨document, known, owned⟩ := owns
  exact turn.worked.closed.owned (turn.inside document known) owned

/-- No object that is in the region has another owner. -/
theorem owner (turn : Turn world after actor region) (owns : after.Owns actor identity)
    (owns' : after.Owns number identity) : number = actor := by
  by_contra other
  exact turn.foreign number identity other (turn.owned_before other owns') (turn.owned_inside owns)

theorem separate (turn : Turn world after actor region) (separate : world.Separate) : after.Separate := by
  constructor
  · intro number identity owns
    by_cases acts : number = actor
    · exact turn.present identity (turn.owned_inside (acts ▸ owns))
    · exact Nat.lt_of_lt_of_le (separate.present number identity (turn.owned_before acts owns)) turn.grown
  · intro number other identity owns owns'
    by_cases acts : number = actor
    · subst acts
      exact (turn.owner owns owns').symm
    · by_cases acts' : other = actor
      · subst acts'
        exact turn.owner owns' owns
      · exact separate.apart number other identity (turn.owned_before acts owns) (turn.owned_before acts' owns')

end Turn

theorem start_separate : start.Separate := by
  have nothing (number : Nat) (identity : Identity) : ¬ start.Owns number identity := by
    rintro ⟨document, known, -⟩
    cases known
  exact ⟨fun number identity owns => absurd owns (nothing number identity),
    fun number _ identity owns => absurd owns (nothing number identity)⟩

theorem turn_refl (world : World) : Turn world world world.documents.length fun _ => False where
  grown := Nat.le_refl _
  worked := Store.Closed.worked fun _ _ here => here.elim
  present := fun _ here => here.elim
  foreign := fun _ _ _ _ here => here
  others := fun _ _ => rfl
  inside := fun document known => by simp at known

/-- What one document owns and what a step makes for it is nobody else's. -/
theorem turn_of_spares (own : Region) (actor : Nat) (documents : List Item) {step : Step α}
    (good : Region → α → Prop) {later : Store} {result : Except Fault α} (separate : world.Separate)
    (closed : world.store.Closed own)
    (present : ∀ identity, own identity → identity < world.store.cells.length)
    (mine : ∀ number identity, number ≠ actor → world.Owns number identity → ¬ own identity)
    (spares : ∀ region : Region, (∀ identity, own identity → region identity) →
      Spares region step (good region))
    (run : step.run.run world.store = (result, later))
    (others : ∀ number, number ≠ actor → documents[number]? = world.documents[number]?)
    (inside : (∀ value, result = .ok value → good (own.withNew world.store later) value) →
      ∀ document, documents[actor]? = some document → document.Within (own.withNew world.store later)) :
    Turn world ⟨later, documents⟩ actor (own.withNew world.store later) := by
  obtain ⟨grown, worked, answer⟩ := Step.Spares.withNew closed spares run
  refine ⟨grown, worked, ?_, ?_, others, inside answer⟩
  · rintro identity (here | new)
    · exact Nat.lt_of_lt_of_le (present identity here) grown
    · exact new.2
  · rintro number identity other owns (here | new)
    · exact mine number identity other owns here
    · exact Nat.not_lt_of_le new.1 (separate.present number identity owns)

/-- A step that makes a document makes it of new objects. -/
theorem turn_adopt {make : Step Item} (separate : world.Separate)
    (spares : ∀ region, Spares region make (Item.Within region)) :
    ∃ region, Turn world (world.adopt make) world.documents.length region := by
  cases run : make.run.run world.store with
  | mk result later =>
    have turn (documents : List Item) := turn_of_spares (fun _ => False) world.documents.length documents
      _ separate (fun _ _ here => here.elim) (fun _ here => here.elim) (fun _ _ _ _ here => here)
      (fun region _ => spares region) run
    unfold adopt
    rw [run]
    cases result with
    | ok document =>
      refine ⟨_, turn (world.documents ++ [document]) (fun number other => ?_) fun answer made known => ?_⟩
      · by_cases older : number < world.documents.length
        · exact List.getElem?_append_left older
        · rw [List.getElem?_eq_none (by simp; omega), List.getElem?_eq_none (Nat.le_of_not_lt older)]
      · rw [List.getElem?_concat_length] at known
        exact Option.some.inj known ▸ answer document rfl
    | error fault =>
      refine ⟨_, turn world.documents (fun _ _ => rfl) fun _ made known => ?_⟩
      simp at known

theorem turn_write {number : Nat} {document : Item} {step : Step Unit} (separate : world.Separate)
    (known : world.documents[number]? = some document)
    (spares : ∀ region, document.Within region → Spares region step fun _ => True) :
    ∃ region, Turn world ⟨(step.run.run world.store).2, world.documents⟩ number region := by
  cases run : step.run.run world.store with
  | mk result later =>
    have present (identity : Identity) (owned : world.store.Owned document identity) :=
      separate.present number identity ⟨document, known, owned⟩
    refine ⟨_, turn_of_spares _ number world.documents (fun _ _ => True) separate
      (world.store.closed_owned document) present ?_ ?_ run (fun _ _ => rfl) ?_⟩
    · intro other identity different owns owned
      exact different (separate.apart other number identity owns ⟨document, known, owned⟩)
    · intro region contains
      exact spares region ((world.store.within_owned document).imp contains)
    · intro _ same here
      obtain rfl := Option.some.inj (known.symm.trans here)
      exact (world.store.within_owned document).imp fun _ => .inl

/-- Every action is the work of one document, which is an old one only for a write through that. -/
theorem turn_of_act (separate : world.Separate) (action : Action) :
    ∃ actor region, Turn world (world.act action) actor region ∧
      (actor < world.documents.length → action.Writes actor) := by
  have idle : ∃ actor region, Turn world world actor region ∧
      (actor < world.documents.length → action.Writes actor) :=
    ⟨_, _, world.turn_refl, fun old => absurd old (Nat.lt_irrefl _)⟩
  have made {make : Step Item} (spares : ∀ region, Spares region make (Item.Within region)) :
      ∃ actor region, Turn world (world.adopt make) actor region ∧
        (actor < world.documents.length → action.Writes actor) := by
    obtain ⟨region, turn⟩ := turn_adopt separate spares
    exact ⟨_, region, turn, fun old => absurd old (Nat.lt_irrefl _)⟩
  cases action with
  | decode source bytes =>
    unfold act
    dsimp only
    split
    · exact made fun region => spares_place region _
    · exact idle
  | construct values => exact made fun region => spares_construction region values
  | copy original =>
    unfold act
    dsimp only
    split
    · next document known => exact made fun region => spares_deepCopy region document
    · exact idle
  | write number path write =>
    unfold act
    dsimp only
    split
    · next document known =>
      obtain ⟨region, turn⟩ := turn_write separate known fun region inside => write.spares_step inside path
      exact ⟨number, region, turn, fun _ => rfl⟩
    · exact idle

/-- An action keeps what every document shows that is not written through. -/
theorem act_keeps (separate : world.Separate) {action : Action} {number : Nat} {document : Item}
    (known : world.documents[number]? = some document) (other : ¬ action.Writes number) :
    (world.act action).documents[number]? = some document ∧
      world.store.Keeps (world.act action).store document := by
  obtain ⟨actor, region, turn, writes⟩ := turn_of_act separate action
  have different : number ≠ actor := by
    rintro rfl
    exact other (writes (List.getElem?_eq_some_iff.mp known).1)
  exact ⟨(turn.others number different).trans known, turn.keeps different known⟩

theorem run_separate (separate : world.Separate) (actions : List Action) : (world.run actions).Separate := by
  induction actions generalizing world with
  | nil => exact separate
  | cons action actions ih =>
    obtain ⟨_, _, turn, -⟩ := turn_of_act separate action
    exact ih (turn.separate separate)

theorem run_keeps (separate : world.Separate) {actions : List Action} {number : Nat} {document : Item}
    (known : world.documents[number]? = some document) (others : ∀ action ∈ actions, ¬ action.Writes number) :
    (world.run actions).documents[number]? = some document ∧
      world.store.Keeps (world.run actions).store document := by
  induction actions generalizing world with
  | nil => exact ⟨known, .refl world.store document⟩
  | cons action actions ih =>
    obtain ⟨here, later⟩ := List.forall_mem_cons.mp others
    obtain ⟨_, _, turn, -⟩ := turn_of_act separate action
    obtain ⟨known, first⟩ := act_keeps separate known here
    obtain ⟨known, rest⟩ := ih (turn.separate separate) known later
    exact ⟨known, first.trans rest⟩

theorem present_of_separate (separate : world.Separate) {number : Nat} {document : Item}
    (known : world.documents[number]? = some document) : world.store.Present document :=
  fun identity owned => separate.present number identity ⟨document, known, owned⟩

/-- A step that makes a document shows it in the world after it. -/
theorem adopt_of_adds {make : Step Item} {value : Value}
    (adds : Adds make world.store fun document later => later.value? document = some value) :
    ∃ document, (world.adopt make).documents = world.documents ++ [document] ∧
      (world.adopt make).store.value? document = some value := by
  obtain ⟨document, later, run, -, shown⟩ := adds
  refine ⟨document, ?_⟩
  unfold adopt
  rw [run]
  exact ⟨rfl, shown⟩

theorem act_decode {source : String} {bytes : List UInt8} {result : Decode.Result}
    (decoded : Decode.decode NodeSchema.nodeConfig source bytes = .ok result) (world : World) :
    ∃ document, (world.act (.decode source bytes)).documents = world.documents ++ [document] ∧
      (world.act (.decode source bytes)).store.value? document = some result.document := by
  simp only [act, decoded]
  exact adopt_of_adds (adds_place result.document world.store)

/-- A deep copy of a document without cycles shows what the document shows. -/
theorem act_copy {number : Nat} {document : Item} {value : Value}
    (known : world.documents[number]? = some document) (shown : world.store.value? document = some value) :
    ∃ copy, (world.act (.copy number)).documents = world.documents ++ [copy] ∧
      (world.act (.copy number)).store.value? copy = some value := by
  simp only [act, known]
  exact adopt_of_adds (adds_deepCopy shown)

/-- Whatever has happened to documents: actions that do not write through one of them leave all objects in
it as they are, and so what it shows, with the mark of every setting at every depth, and what `to_dict`
answers. A deep copy of it, which there is unless an object lies in itself, is a new document that shows the
same as it does. -/
theorem documents_isolated (earlier later : List Action) {number : Nat} {document : Item}
    (known : (start.run earlier).documents[number]? = some document)
    (others : ∀ action ∈ later, ¬ action.Writes number) :
    ((start.run (earlier ++ later)).documents[number]? = some document ∧
      (∀ identity, (start.run earlier).store.Owned document identity →
        (start.run (earlier ++ later)).store.read? identity = (start.run earlier).store.read? identity) ∧
      (start.run (earlier ++ later)).store.value? document = (start.run earlier).store.value? document ∧
      (start.run (earlier ++ later)).store.toDict document = (start.run earlier).store.toDict document) ∧
    ((start.run earlier).store.Acyclic document → ∃ value copy,
      (start.run earlier).store.value? document = some value ∧
      (start.run (earlier ++ [.copy number])).documents = (start.run earlier).documents ++ [copy] ∧
      (start.run (earlier ++ [.copy number])).store.value? copy = some value) := by
  have separate := run_separate start_separate earlier
  have present := present_of_separate separate known
  have after (actions : List Action) : start.run (earlier ++ actions) = (start.run earlier).run actions :=
    List.foldl_append
  constructor
  · rw [after later]
    obtain ⟨still, keeps⟩ := run_keeps separate known others
    exact ⟨still, keeps.same, keeps.value?_eq present, keeps.toDict_eq present⟩
  · intro acyclic
    rw [after [.copy number]]
    obtain ⟨value, shown⟩ := Option.isSome_iff_exists.mp ((Store.isSome_value?_iff present).mpr acyclic)
    obtain ⟨copy, listed, same⟩ := act_copy known shown
    exact ⟨value, copy, shown, listed, same⟩

/-- A document and a copy of it. -/
def copiedOnce : List Action :=
  [.construct [("cluster_name", .str "a")], .copy 0]

/-- A call on a map inside the copy, and an assignment to a document inside it. -/
def copyWrites : List Action :=
  [.write 1 [.str "seed_provider", .str "parameters"]
      (.call .setItem [.item (.fresh (.str "seeds")), .item (.fresh (.str "b"))]),
    .write 1 [.str "seed_provider"] (.assign "class_name" (.fresh (.str "c")))]

set_option maxRecDepth 100000 in
/-- The writes through the copy show there, and not in the original, of which another copy can be made. -/
theorem documents_isolated_copiedOnce :
    (start.run copiedOnce).documents[0]? = some (.object 7) ∧ (∀ action ∈ copyWrites, ¬ action.Writes 0) ∧
      (start.run (copiedOnce ++ copyWrites)).store.value? (.object 7) =
        (start.run copiedOnce).store.value? (.object 7) ∧
      (start.run (copiedOnce ++ copyWrites)).store.value? (.object 15) ≠
        (start.run copiedOnce).store.value? (.object 15) ∧
      ∃ value copy, (start.run copiedOnce).store.value? (.object 7) = some value ∧
        (start.run (copiedOnce ++ [.copy 0])).documents = (start.run copiedOnce).documents ++ [copy] ∧
        (start.run (copiedOnce ++ [.copy 0])).store.value? copy = some value := by
  have known : (start.run copiedOnce).documents[0]? = some (.object 7) := rfl
  have others : ∀ action ∈ copyWrites, ¬ action.Writes 0 := by
    rintro action listed (writes : action.Writes 0)
    simp only [copyWrites, List.mem_cons, List.not_mem_nil, or_false] at listed
    rcases listed with rfl | rfl <;> cases writes
  have shown : ((start.run copiedOnce).store.view 16 (.object 7)).isSome = true := by decide +kernel
  obtain ⟨⟨_, _, kept, _⟩, copies⟩ := documents_isolated copiedOnce copyWrites known others
  refine ⟨known, others, kept, fun same => ?_, copies (Store.acyclic_of_view shown)⟩
  have alike : (((start.run copiedOnce).store.value? (.object 15)).any fun value =>
      ((start.run copiedOnce).store.value? (.object 15)).any value.eqv) = true := by decide +kernel
  have unlike : (((start.run (copiedOnce ++ copyWrites)).store.value? (.object 15)).any fun value =>
      ((start.run copiedOnce).store.value? (.object 15)).any value.eqv) = false := by decide +kernel
  rw [same, alike] at unlike
  cases unlike

end World

end LayeredConfig
