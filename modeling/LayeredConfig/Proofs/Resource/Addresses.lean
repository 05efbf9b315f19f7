import LayeredConfig.Proofs.Resource.Places
import LayeredConfig.Proofs.Text.Escaping
import LayeredConfig.Resource.Location

namespace LayeredConfig

namespace Text

theorem trimBoth_of_ends {skip : Char → Bool} {text : List Char}
    (first : ∀ c ∈ text.head?, skip c = false) (last : ∀ c ∈ text.getLast?, skip c = false) :
    trimBoth skip text = text := by
  have kept {text : List Char} (first : ∀ c ∈ text.head?, skip c = false) :
      text.dropWhile skip = text := by
    cases text with
    | nil => rfl
    | cons c text => rw [List.dropWhile_cons, if_neg (by simpa using first c rfl)]
  rw [trimBoth, kept first, kept (by rwa [List.head?_reverse]), List.reverse_reverse]

theorem percentEncode_slash (path : List Char) :
    (percentEncode (String.ofList ('/' :: path))).toList =
      '/' :: (percentEncode (String.ofList path)).toList := by
  have slash : percentByte 0x2f = ['/'] := by decide
  have bytes : encodeUtf8 ('/' :: path) = 0x2f :: encodeUtf8 path := rfl
  simp only [percentEncode, String.toList_ofList, bytes, List.flatMap_cons, slash]
  rfl

end Text

namespace Location

variable {files : Files} {place : List FileName}

/-- The address of a file after its mark: an encoded path. -/
def urlPath (place : List FileName) : List Char :=
  (Text.percentEncode (String.ofList ('/' :: Path.joined place))).toList

theorem urlPath_eq (place : List FileName) :
    urlPath place = '/' :: (Text.percentEncode (String.ofList (Path.joined place))).toList :=
  Text.percentEncode_slash _

theorem toList_fileUrl (place : List FileName) :
    (fileUrl place).toList = 'f' :: 'i' :: 'l' :: 'e' :: ':' :: '/' :: '/' :: urlPath place := by
  rw [fileUrl, String.toList_append]
  rfl

theorem isPathChar_of_fileUrl {c : Char} (member : c ∈ (fileUrl place).toList) :
    Text.isPathChar c = true := by
  rw [toList_fileUrl] at member
  simp only [List.mem_cons] at member
  rcases member with rfl | rfl | rfl | rfl | rfl | rfl | rfl | member
  all_goals first | decide | exact Text.percentEncode_isPathChar member

theorem unwrap_fileUrl (place : List FileName) :
    Address.unwrap (fileUrl place).toList = (fileUrl place).toList := by
  have solid {c : Char} (member : c ∈ (fileUrl place).toList) : Text.isBlank c = false := by
    have char := isPathChar_of_fileUrl member
    simp only [Text.isPathChar, Bool.and_eq_true, Bool.not_eq_true'] at char
    exact char.1.2
  have trimmed : Text.trimBoth Text.isBlank (fileUrl place).toList = (fileUrl place).toList :=
    Text.trimBoth_of_ends (fun c first => solid (List.mem_of_mem_head? first))
      (fun c last => solid (List.mem_of_getLast? last))
  have first : (fileUrl place).toList.head? = some 'f' := by
    rw [toList_fileUrl]
    rfl
  have unmarked : "URL:".toList.isPrefixOf (fileUrl place).toList = false := by
    rw [toList_fileUrl]
    rfl
  have bare : (some 'f' == some '<') = false := by decide
  unfold Address.unwrap
  simp only [trimmed, first, unmarked, bare, Bool.false_and, Bool.false_eq_true, if_false]

theorem splitFragment_fileUrl (place : List FileName) :
    Address.splitFragment (fileUrl place).toList = ((fileUrl place).toList, none) := by
  have whole : (fileUrl place).toList.contains '#' = false := by
    refine Bool.eq_false_iff.mpr fun mark => ?_
    have char := isPathChar_of_fileUrl (List.contains_iff_mem.mp mark)
    exact absurd char (by decide)
  rw [Address.splitFragment, whole]
  rfl

theorem splitScheme_fileUrl (place : List FileName) :
    Address.splitScheme (fileUrl place).toList = some ("file".toList, '/' :: '/' :: urlPath place) := by
  rw [toList_fileUrl]
  rfl

theorem splitHost_urlPath (place : List FileName) :
    Address.splitHost ('/' :: '/' :: urlPath place) = (some [], urlPath place) := by
  rw [urlPath_eq]
  rfl

/-- What is read at the address of a place is the file that the path from the root finds there. -/
theorem read_fileUrl_eq_ok_iff {bytes : List UInt8} :
    Address.read files (fileUrl place) = .ok bytes ↔
      files.findText (Path.absolute place) = .ok (.file bytes) := by
  have path : Text.percentDecode (String.ofList (urlPath place)) = Path.absolute place := by
    rw [urlPath, String.ofList_toList, Text.percentDecode_percentEncode, Path.absolute]
  have noHost : Text.percentDecode (String.ofList []) = "" := Text.percentDecode_percentEncode ""
  unfold Address.read
  rw [unwrap_fileUrl, splitFragment_fileUrl]
  simp only [splitScheme_fileUrl, beq_self_eq_true, if_true]
  unfold Address.openFile
  rw [splitHost_urlPath]
  simp only [Option.getD_some, noHost, path]
  rcases files.findText (Path.absolute place) with (_ | _ | _) | (_ | _) <;> simp

/-- The file at a place is read at the address of the place, exactly if its path can be asked for. -/
theorem read_fileUrl_iff {bytes : List UInt8} (standing : files.Standing place)
    (found : files.entry? place = some (.file bytes)) :
    Address.read files (fileUrl place) = .ok bytes ↔ Files.Askable place := by
  have named : place ≠ [] := by
    rintro rfl
    cases found
  rw [read_fileUrl_eq_ok_iff, standing.findText_eq named found]
  split <;> simp_all

theorem read_of_opens {location : Location} {bytes : List UInt8}
    (opens : Address.read files location.url = .ok bytes) : location.read files = .ok bytes := by
  unfold Location.read
  rw [opens]

theorem read_eq_ok_iff {location : Location} {bytes : List UInt8} :
    location.read files = .ok bytes ↔ Address.read files location.url = .ok bytes := by
  refine ⟨fun read => ?_, read_of_opens⟩
  unfold Location.read at read
  split at read
  · next opens => rw [opens, Except.ok.inj read]
  · cases read
  · cases read

end Location

end LayeredConfig
