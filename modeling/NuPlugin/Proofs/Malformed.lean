import NuPlugin.Proofs.Outcome
import NuPlugin.Proofs.Text.Utf8Fault
import NuPlugin.Proofs.Toml.Location

/-!
# Malformed manifests

The reason for which a manifest is refused tells a place in it. Bytes that are no text are refused
with the place where they stop being one. A text that is no document is refused with the line and
the column of a position, and that position can be told from them.
-/

namespace NuPlugin.Manifest

open Text

variable {files : Files} {path : Path} {bytes : List UInt8} {text : String} {s : List Char}

/-! ## Bytes -/

theorem nameInBytes_of_fault {f : Utf8.Fault} (h : Utf8.decode bytes = .error f) :
    nameInBytes bytes = .error (.notUtf8 f) := by
  rw [nameInBytes, h]

/-- The bytes of one text have the outcome of that text. All other bytes are refused with the
place of their fault. -/
theorem packageName_bytes (h : contentAt files path = .bytes bytes) :
    (∃ s, bytes = Utf8.encode s ∧ (∀ t, bytes = Utf8.encode t → t = s) ∧
      packageName files path = (nameInText s).mapError (Refusal.toFailure path)) ∨
    ∃ f : Utf8.Fault, f.Explains bytes ∧
      packageName files path = .error (.install (.invalidManifest path
        ("'utf-8' codec can't decode " ++
          (if f.last = f.start then
            "byte 0x" ++ String.ofList (hexDigits 2 f.first.toNat) ++ " in position " ++
              toString f.start
          else "bytes in position " ++ toString f.start ++ "-" ++ toString f.last) ++
          ": " ++ f.reason.message))) := by
  rw [packageName_of_bytes h]
  cases hdecode : Utf8.decode bytes with
  | ok s =>
    obtain rfl := Utf8.decode_eq_ok_iff.1 hdecode
    refine .inl ⟨s, rfl, fun t ht => (Utf8.encode_inj.1 ht).symm, ?_⟩
    rw [nameInBytes_encode]
  | error f =>
    refine .inr ⟨f, Utf8.explains_of_decode hdecode, ?_⟩
    rw [nameInBytes_of_fault hdecode, mapError_error, Refusal.toFailure, Utf8.Fault.message_eq]

def cutBytes : List UInt8 := [0x61, 0xE2, 0x82]

theorem packageName_cutBytes :
    let files : Files := fun _ => some (.bytes cutBytes)
    ∃ f : Utf8.Fault, f.Explains cutBytes ∧ f.reason = .unexpectedEnd ∧ f.last = 2 ∧
      packageName files (.ofString "Cargo.toml") =
        .error (.install (.invalidManifest (.ofString "Cargo.toml")
          "'utf-8' codec can't decode bytes in position 1-2: unexpected end of data")) := by
  intro files
  have hname : packageName files (.ofString "Cargo.toml") = .error (.install (.invalidManifest
      (.ofString "Cargo.toml")
      "'utf-8' codec can't decode bytes in position 1-2: unexpected end of data")) := by
    decide +kernel
  have hmore : Utf8.IsValid (cutBytes ++ [0xAC]) := ⟨['a', '€'], by decide +kernel⟩
  have hcontent : contentAt files (.ofString "Cargo.toml") = .bytes cutBytes := rfl
  rcases packageName_bytes hcontent with ⟨s, hs, -⟩ | ⟨f, hf, -⟩
  · have hread := Utf8.decode_eq_ok_iff.2 hs
    have hbroken : Utf8.decode cutBytes = .error ⟨1, 0xE2, 1, .unexpectedEnd⟩ := by
      decide +kernel
    cases hbroken.symm.trans hread
  · have hreason := hf.unexpectedEnd_iff.2 ⟨_, hmore⟩
    exact ⟨f, hf, hreason, Nat.succ.inj (hf.last_of_unexpectedEnd hreason), hname⟩

/-! ## Texts -/

def reasonAt (s : List Char) (cause : Toml.Cause) (position : Nat) : String :=
  cause.message ++ " (" ++ (Toml.Location.of s position).message ++ ")"

theorem exists_position_of_malformed {cause : Toml.Cause} {place : List Char}
    (h : Toml.readDocument s = .error (.malformed cause place)) :
    ∃ position ≤ s.length, place = s.drop position := by
  have hsuffix : place <:+ s := Toml.readDocument_faults s _ h
  exact ⟨s.length - place.length, Nat.sub_le _ _, List.suffix_iff_eq_drop.1 hsuffix⟩

theorem packageName_of_malformed (hfile : files path.toString = some (.ofText text))
    {cause : Toml.Cause} {position : Nat}
    (h : Toml.readDocument (Toml.joinNewlines text.toList) =
      .error (.malformed cause ((Toml.joinNewlines text.toList).drop position))) :
    packageName files path = .error (.install (.invalidManifest path
      (reasonAt (Toml.joinNewlines text.toList) cause position))) := by
  have hname : nameInText text.toList =
      .error (.malformed cause (.of (Toml.joinNewlines text.toList) position)) := by
    unfold nameInText
    dsimp only
    rw [h, ← Toml.Location.ofRest_drop]
  rw [packageName_ofText hfile, hname]
  rfl

theorem message_reasonAt (path : Path) (s : List Char) (cause : Toml.Cause) (position : Nat) :
    (InstallError.invalidManifest path (reasonAt s cause position)).message =
      "Cannot parse " ++ path.toString ++ ": " ++ cause.message ++ " " ++ "(" ++
        (Toml.Location.of s position).message ++ ")" := by
  have hmessage (reason : String) : (InstallError.invalidManifest path reason).message =
      "Cannot parse " ++ path.toString ++ ": " ++ reason := rfl
  have hopen : " (" = " " ++ "(" := rfl
  rw [hmessage, reasonAt, hopen]
  simp only [String.append_assoc]

/-- The words for a position in a text, with its lines and columns counted out. -/
structure TellsPosition (s : List Char) (position : Nat) (words : String) : Prop where
  atEnd_iff : words = "at end of document" ↔ s.length ≤ position
  within : position < s.length → ∃ (line column : Nat) (content : List Char),
    words = "at line " ++ line.repr ++ ", column " ++ column.repr ∧
      1 ≤ line ∧ (s.splitOn '\n')[line - 1]? = some content ∧
      1 ≤ column ∧ column ≤ content.length + 1 ∧
      position =
        (((s.splitOn '\n').take (line - 1)).map List.length).sum + (line - 1) + (column - 1)

theorem message_of_tellsPosition (s : List Char) (position : Nat) :
    TellsPosition s position (Toml.Location.of s position).message where
  atEnd_iff := by
    rw [← Toml.Location.of_eq_endOfDocument_iff]
    exact ⟨@Toml.Location.message_injective _ .endOfDocument, fun h => h ▸ rfl⟩
  within := by
    intro h
    obtain ⟨line, column, content, hof, hrest⟩ := Toml.Location.of_eq_at h
    exact ⟨line, column, content, by rw [hof, Toml.Location.message_at], hrest⟩

/-- Whatever is malformed in a manifest is malformed at a position of its text, and the reason for
which it is refused tells that position in lines and columns. No two positions within the text are
told in the same words, and the position is read back from the message of the error. -/
theorem packageName_tells_position (hfile : files path.toString = some (.ofText text)) :
    let s := Toml.joinNewlines text.toList
    (∀ cause place, Toml.readDocument s = .error (.malformed cause place) →
      ∃ position ≤ s.length, place = s.drop position) ∧
    (∀ cause position, Toml.readDocument s = .error (.malformed cause (s.drop position)) →
      packageName files path =
        .error (.install (.invalidManifest path (reasonAt s cause position)))) ∧
    ∀ position,
      TellsPosition s position (Toml.Location.of s position).message ∧
      (position < s.length → ∀ other < s.length,
        (Toml.Location.of s other).message = (Toml.Location.of s position).message →
          other = position) ∧
      ∀ cause, Toml.positionTold? s
          (InstallError.invalidManifest path (reasonAt s cause position)).message =
        if position < s.length then some position else none := by
  intro s
  refine ⟨fun cause place h => exists_position_of_malformed h,
    fun cause position h => packageName_of_malformed hfile h, fun position => ⟨?_, ?_, ?_⟩⟩
  · exact message_of_tellsPosition s position
  · intro h other hother hwords
    exact Toml.Location.of_injective hother h (Toml.Location.message_injective hwords)
  · intro cause
    rw [message_reasonAt]
    exact Toml.positionTold?_append s _ position

/-- No value stands before the newline at the end of the second line, and the newline before that is
written with a return. -/
theorem packageName_tells_newline :
    let files : Files := fun _ => some (.ofText "a = 1\r\nb = \n")
    let s := Toml.joinNewlines "a = 1\r\nb = \n".toList
    Toml.readDocument s = .error (.malformed .invalidValue (s.drop 10)) ∧
      packageName files (.ofString "Cargo.toml") =
        .error (.install (.invalidManifest (.ofString "Cargo.toml")
          "Invalid value (at line 2, column 5)")) ∧
      Toml.positionTold? s "Cannot parse Cargo.toml: Invalid value (at line 2, column 5)" =
        some 10 := by
  intro files s
  have hread : Toml.readDocument s = .error (.malformed .invalidValue (s.drop 10)) := by rfl
  have hreason : reasonAt s .invalidValue 10 = "Invalid value (at line 2, column 5)" := by
    decide +kernel
  have hfile : files (Path.ofString "Cargo.toml").toString = some (.ofText "a = 1\r\nb = \n") := rfl
  obtain ⟨-, hrefused, hposition⟩ := packageName_tells_position hfile
  obtain ⟨-, -, htold⟩ := hposition 10
  refine ⟨hread, ?_, ?_⟩
  · rw [hrefused _ _ hread, hreason]
  · have hmessage := htold .invalidValue
    rw [hreason] at hmessage
    exact hmessage

end NuPlugin.Manifest
