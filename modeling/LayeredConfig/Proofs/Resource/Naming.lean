import LayeredConfig.Proofs.Resource.Addresses

namespace LayeredConfig

namespace Path

/-- Where names lead from a place, one after the other. An empty name or a single dot stays there, two
dots go up, where the root is its own parent, and any other name goes down. -/
inductive Leads : List FileName → List FileName → List FileName → Prop
  | here : Leads place [] place
  | stay (void : name = [] ∨ name = ['.']) (onward : Leads place way target) :
      Leads place (name :: way) target
  | up (onward : Leads place.dropLast way target) : Leads place (['.', '.'] :: way) target
  | down (solid : name ∉ [[], ['.'], ['.', '.']]) (onward : Leads (place ++ [name]) way target) :
      Leads place (name :: way) target

variable {place way target : List FileName} {name : FileName}

theorem isVoid_iff : isVoid name = true ↔ name = [] ∨ name = ['.'] := by
  simp [isVoid]

theorem isParent_iff : isParent name = true ↔ name = ['.', '.'] := by
  simp [isParent]

theorem leads_steps (place way : List FileName) :
    Leads place way ((way.filter (!isVoid ·)).foldl step place) := by
  induction way generalizing place with
  | nil => exact .here
  | cons name way ih =>
    by_cases void : isVoid name = true
    · rw [List.filter_cons_of_neg (by simp [void])]
      exact .stay (isVoid_iff.mp void) (ih place)
    · rw [List.filter_cons_of_pos (by simpa using void), List.foldl_cons]
      by_cases parent : name = ['.', '.']
      · subst parent
        exact .up (ih place.dropLast)
      · have child : step place name = place ++ [name] := if_neg (by rwa [isParent_iff])
        rw [child]
        refine .down ?_ (ih _)
        simpa [isVoid_iff, parent, and_assoc] using void

theorem leads_iff : Leads place way target ↔ (way.filter (!isVoid ·)).foldl step place = target := by
  constructor
  · intro leads
    induction leads with
    | here => rfl
    | stay void _ ih => rwa [List.filter_cons_of_neg (by simp [isVoid_iff.mpr void])]
    | up _ ih => exact ih
    | @down name place _ _ solid _ ih =>
      have others : ¬ isVoid name = true ∧ name ≠ ['.', '.'] := by
        simpa [isVoid_iff, and_assoc] using solid
      have child : step place name = place ++ [name] := if_neg (by rw [isParent_iff]; exact others.2)
      rwa [List.filter_cons_of_pos (by simpa using others.1), List.foldl_cons, child]
  · rintro rfl
    exact leads_steps place way

end Path

/-- A text is a path to a place: it has neither the mark of addresses nor a null character, and its names
lead there, from the root if it starts with a slash and from home otherwise. -/
structure Files.PathTo (files : Files) (text : String) (place : List FileName) : Prop where
  unmarked : ¬ "://".toList <:+: text.toList
  visible : '\x00' ∉ text.toList
  leads : Path.Leads (if text.toList.head? = some '/' then [] else files.home)
    (Path.pieces text.toList) place

namespace Location

variable {files : Files} {text : String} {place : List FileName}

theorem hasSchemeMark_iff {text : List Char} : hasSchemeMark text = true ↔ "://".toList <:+: text := by
  induction text with
  | nil => simp [hasSchemeMark]
  | cons c text ih =>
    rw [List.infix_cons_iff, ← ih]
    by_cases marked : "://".toList <+: c :: text
    · obtain ⟨rest, whole⟩ := marked
      rw [← whole]
      simp [hasSchemeMark]
    · have onward : hasSchemeMark (c :: text) = hasSchemeMark text := by
        rw [hasSchemeMark]
        rintro rest rfl rfl
        exact marked ⟨rest, rfl⟩
      rw [onward]
      exact (or_iff_right marked).symm

theorem isAbsolute_ofText (text : String) :
    (Path.ofText text).isAbsolute = true ↔ text.toList.head? = some '/' := by
  have root : Path.rootOf text.toList ≠ .relative ↔ text.toList.head? = some '/' := by
    unfold Path.rootOf
    split
    · next same => simp [same]
    · next same => simp [same]
    · next same => simp [same]
    · next other =>
      refine iff_of_false (by simp) fun first => ?_
      obtain ⟨rest, whole⟩ := List.head?_eq_some_iff.mp first
      exact other rest whole
  rw [← root, Path.isAbsolute, bne_iff_ne]
  rfl

theorem place_iff :
    Path.Leads (if text.toList.head? = some '/' then [] else files.home)
      (Path.pieces text.toList) place ↔ files.place text = place := by
  rw [Path.leads_iff, Files.place, Path.resolve]
  simp only [isAbsolute_ofText]
  rfl

theorem ofText_of_marked (files : Files) (marked : "://".toList <:+: text.toList) :
    ofText files text = .ok ⟨text, text⟩ :=
  if_pos (hasSchemeMark_iff.mpr marked)

theorem ofText_of_null (files : Files) (unmarked : ¬ "://".toList <:+: text.toList)
    (null : '\x00' ∈ text.toList) :
    ofText files text = .error .content := by
  rw [ofText, if_neg (by rwa [hasSchemeMark_iff]), if_pos (by simpa using null)]

/-- A path stands for the address of the place that it leads to. -/
theorem ofText_of_pathTo (path : files.PathTo text place) :
    ofText files text = .ok ⟨fileUrl place, text⟩ := by
  rw [ofText, if_neg (by rw [hasSchemeMark_iff]; exact path.unmarked),
    if_neg (by simpa using path.visible), place_iff.mp path.leads]

theorem exists_pathTo (files : Files) (unmarked : ¬ "://".toList <:+: text.toList)
    (visible : '\x00' ∉ text.toList) :
    ∃ place, files.PathTo text place :=
  ⟨files.place text, unmarked, visible, place_iff.mpr rfl⟩

/-- Every address of a file has the mark of addresses, and a slash after it. -/
theorem marked_fileUrl (place : List FileName) : "file:///".toList <+: (fileUrl place).toList := by
  rw [toList_fileUrl, urlPath_eq]
  exact ⟨_, rfl⟩

theorem fileUrl_inj {other : List FileName} :
    fileUrl other = fileUrl place ↔ Path.absolute other = Path.absolute place := by
  constructor
  · intro same
    have encoded : Text.percentEncode (Path.absolute other) = Text.percentEncode (Path.absolute place) := by
      have chars := congrArg String.toList same
      simp only [toList_fileUrl, List.cons.injEq, true_and] at chars
      exact String.toList_inj.mp chars
    rw [← Text.percentDecode_percentEncode (Path.absolute other), encoded,
      Text.percentDecode_percentEncode]
  · intro same
    have encoded := congrArg (fun path => fileMark ++ Text.percentEncode path) same
    exact encoded

/-- A path stands for an address of a file under its own name. If there is a file at the absolute path
that it leads to, its bytes are what is read there; and two paths have one address only if they lead to
one absolute path. -/
theorem path_read_at_address (files : Files) (path : files.PathTo text place) :
    ∃ location, ofText files text = .ok location ∧ location.name = text ∧
      "file:///".toList <+: location.url.toList ∧
      (∀ bytes, files.findText (Path.absolute place) = .ok (.file bytes) →
        location.read files = .ok bytes) ∧
      ∀ other elsewhere location', files.PathTo other elsewhere → ofText files other = .ok location' →
        (location'.url = location.url ↔ Path.absolute elsewhere = Path.absolute place) := by
  refine ⟨⟨fileUrl place, text⟩, ofText_of_pathTo path, rfl, marked_fileUrl place, fun bytes found => ?_,
    fun other elsewhere location' path' stands => ?_⟩
  · exact read_of_opens (read_fileUrl_eq_ok_iff.mpr found)
  · obtain rfl := Except.ok.inj ((ofText_of_pathTo path').symm.trans stands)
    exact fileUrl_inj

/-- A file below home whose name has characters that addresses use for themselves. -/
def quotedFiles : Files :=
  { home := ["R".toList]
    entries := [(["R".toList], .directory), (["R".toList, "a".toList], .directory),
    (["R".toList, "ü %2f#?:'\".yaml".toList], .file [1, 2])] }

theorem path_read_at_address_quotedFiles :
    ∃ location, ofText quotedFiles "a/..//./ü %2f#?:'\".yaml" = .ok location ∧
      location.url = "file:///R/%C3%BC%20%252f%23%3F%3A%27%22.yaml" ∧
      location.read quotedFiles = .ok [1, 2] := by
  have path : quotedFiles.PathTo "a/..//./ü %2f#?:'\".yaml" ["R".toList, "ü %2f#?:'\".yaml".toList] :=
    ⟨by rw [← hasSchemeMark_iff]; decide, by decide, place_iff.mpr (by decide +kernel)⟩
  have found : quotedFiles.findText (Path.absolute ["R".toList, "ü %2f#?:'\".yaml".toList]) =
      .ok (.file [1, 2]) := by rfl
  obtain ⟨location, stands, -, -, reads, -⟩ := path_read_at_address quotedFiles path
  obtain rfl := Except.ok.inj ((ofText_of_pathTo path).symm.trans stands)
  exact ⟨_, stands, by rfl, reads _ found⟩

end Location

end LayeredConfig
