import LayeredConfig.Proofs.Loader.Result
import LayeredConfig.Proofs.Resource.Naming
import LayeredConfig.Proofs.Resource.Resolution

/-!
The two ways to name a document: by a text, or by the location that is found for the text. They come to
the same for addresses that show the mark of addresses; the others are opened when a location is looked
for, but taken for paths when they are loaded.
-/

namespace LayeredConfig

namespace Location

variable {files : Files} {name : String} {bytes : List UInt8}

/-- A name that can be opened is its own location, whichever variable it comes from. -/
theorem resolve_of_opens (opens : Address.read files name = .ok bytes) {environment : Environment}
    {key default : String} (named : (environment.lookup key).getD default = name)
    (searchPath : List Path) (verbosity : Verbosity) :
    ((resolve files environment key default searchPath).outcome verbosity).1 = .ok ⟨name, name⟩ := by
  rw [(resolve_ends files environment key default searchPath).outcome verbosity, located, named]
  exact named_eq_iff.mpr (.opened opens)

/-- The address that a text stands for is the text itself only if this has the mark of addresses. -/
theorem url_eq_iff :
    (∃ location, ofText files name = .ok location ∧ location.url = name) ↔
      "://".toList <:+: name.toList := by
  constructor
  · rintro ⟨location, stands, same⟩
    by_contra unmarked
    by_cases null : '\x00' ∈ name.toList
    · cases (ofText_of_null files unmarked null).symm.trans stands
    · obtain ⟨place, path⟩ := exists_pathTo files unmarked null
      obtain rfl := Except.ok.inj ((ofText_of_pathTo path).symm.trans stands)
      -- the address of a file has the mark, so it is not the text
      obtain ⟨rest, whole⟩ := marked_fileUrl place
      exact unmarked ⟨"file".toList, '/' :: rest, by rw [← same, ← whole]; rfl⟩
  · exact fun marked => ⟨⟨name, name⟩, ofText_of_marked files marked, rfl⟩

end Location

namespace Loader

open Location

variable {files : Files} {name : String} {bytes : List UInt8} {location : Location}

theorem loadConfig_text (stands : ofText files name = .ok location) (loader : Loader)
    (verbosity : Verbosity) :
    loader.loadConfig files verbosity (some (.text name)) =
      loader.loadConfig files verbosity (some (.location location)) := by
  simp only [loadConfig, loadTarget, Target.resolve, stands]

/-- A text that stands for nothing is not loaded. -/
theorem loadConfig_text_of_error {fault : Fault} (fails : ofText files name = .error fault)
    (loader : Loader) (verbosity : Verbosity) :
    ((loader.loadConfig files verbosity (some (.text name))).outcome verbosity).1 =
      .error (.fault fault) := by
  rw [(loadConfig_ends files verbosity loader _).outcome verbosity, result, Target.resolve, fails]
  rfl

/-- What naming a document by a text comes to when the text can be opened as an address. The location that
is found for it has the text as its address. The text stands for that same location if and only if it has
the mark of addresses, and then a load by the text is a load of that location. Any other text stands for
the address of a file, which is another one, and is loaded from there, or for nothing. -/
theorem naming_agrees_iff (opens : Address.read files name = .ok bytes) :
    (∀ (environment : Environment) (key default : String) (searchPath : List Path) (verbosity : Verbosity),
      (environment.lookup key).getD default = name →
        ((resolve files environment key default searchPath).outcome verbosity).1 = .ok ⟨name, name⟩) ∧
    ((∃ location, ofText files name = .ok location ∧ location.url = name) ↔
      "://".toList <:+: name.toList) ∧
    ("://".toList <:+: name.toList → ofText files name = .ok ⟨name, name⟩ ∧
      ∀ (loader : Loader) (verbosity : Verbosity),
        loader.loadConfig files verbosity (some (.text name)) =
          loader.loadConfig files verbosity (some (.location ⟨name, name⟩))) ∧
    (¬ "://".toList <:+: name.toList → '\x00' ∉ name.toList →
      ∃ place, files.PathTo name place ∧ ofText files name = .ok ⟨fileUrl place, name⟩ ∧
        ∀ (loader : Loader) (verbosity : Verbosity),
          loader.loadConfig files verbosity (some (.text name)) =
            loader.loadConfig files verbosity (some (.location ⟨fileUrl place, name⟩))) ∧
    (¬ "://".toList <:+: name.toList → '\x00' ∈ name.toList →
      ofText files name = .error .content ∧ ∀ (loader : Loader) (verbosity : Verbosity),
        ((loader.loadConfig files verbosity (some (.text name))).outcome verbosity).1 =
          .error (.fault .content)) := by
  refine ⟨fun environment key default searchPath verbosity named => ?_, url_eq_iff, fun marked => ?_,
    fun unmarked visible => ?_, fun unmarked null => ?_⟩
  · exact resolve_of_opens opens named searchPath verbosity
  · have stands := ofText_of_marked files marked
    exact ⟨stands, loadConfig_text stands⟩
  · obtain ⟨place, path⟩ := exists_pathTo files unmarked visible
    exact ⟨place, path, ofText_of_pathTo path, loadConfig_text (ofText_of_pathTo path)⟩
  · have fails := ofText_of_null files unmarked null
    exact ⟨fails, loadConfig_text_of_error fails⟩

/-- The name of a file, and the name of a file that looks like its address. -/
def twinFiles : Files :=
  { home := ["R".toList]
    entries := [(["R".toList], .directory),
    (["R".toList, "a.yaml".toList], .file "num_tokens: 1".toUTF8.toList),
    (["R".toList, "file:a.yaml".toList], .file "num_tokens: 2".toUTF8.toList)] }

/-- The address of a file relative to home is opened as such, and loaded as the path that it looks like. -/
theorem naming_agrees_iff_twinFiles :
    Address.read twinFiles "file:a.yaml" = .ok "num_tokens: 1".toUTF8.toList ∧
      ((resolve twinFiles [] "KEY" "file:a.yaml" []).outcome .nothing).1 =
        .ok ⟨"file:a.yaml", "file:a.yaml"⟩ ∧
      ∃ location, ofText twinFiles "file:a.yaml" = .ok location ∧ location.url ≠ "file:a.yaml" ∧
        location.read twinFiles = .ok "num_tokens: 2".toUTF8.toList := by
  have opens : Address.read twinFiles "file:a.yaml" = .ok "num_tokens: 1".toUTF8.toList := by
    decide +kernel
  have unmarked : ¬ "://".toList <:+: "file:a.yaml".toList := by
    rw [← hasSchemeMark_iff]
    decide
  obtain ⟨found, same, -, paths, -⟩ := naming_agrees_iff opens
  obtain ⟨place, path, stands, -⟩ := paths unmarked (by decide)
  refine ⟨opens, found [] "KEY" _ [] .nothing rfl, _, stands, fun equal => ?_, ?_⟩
  · exact unmarked (same.mp ⟨_, stands, equal⟩)
  · obtain rfl := place_iff.mp path.leads
    decide +kernel

/-- An address that holds its content can be opened, but it is not what its text stands for. -/
theorem data_address_taken_for_path :
    ¬ ∀ (files : Files) (name : String) (bytes : List UInt8), Address.read files name = .ok bytes →
      ∃ location, ofText files name = .ok location ∧ location.url = name := by
  intro agrees
  have opens : Address.read .empty "data:,cluster_name:%20X" =
      .ok "cluster_name: X".toUTF8.toList := by decide +kernel
  have marked := url_eq_iff.mp (agrees _ _ _ opens)
  rw [← hasSchemeMark_iff] at marked
  revert marked
  decide

end Loader

end LayeredConfig
