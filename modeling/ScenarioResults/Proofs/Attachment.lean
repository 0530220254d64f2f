import Mathlib.Data.List.Nodup
import Mathlib.Tactic.Common
import ScenarioResults.Attachment

/-!
# Numbered attachments

A shelf names its attachments by their number and their media type: `Shelf.reference` writes the names
out, with the extensions in a table. The number can be read off a name again
(`Shelf.number_reference`), so names with different numbers differ whatever the media types are, and
the first attachment that is found under a name is the only one (`Shelf.get?_of_nodup`).
-/

namespace ScenarioResults

/-- The reference to an attachment that is kept. -/
def Attachment.ref (a : Attachment) : AttachmentRef :=
  { mimeType := a.mimeType, filename := a.filename }

namespace Shelf

/-! ## Names -/

/-- The extensions of the media types that are known. -/
def extensions : List (String × String) :=
  [("image/png", "png"), ("image/jpeg", "jpg"), ("image/jpg", "jpg"), ("image/gif", "gif"),
    ("image/svg+xml", "svg"), ("text/plain", "txt"), ("text/html", "html"), ("text/xml", "xml"),
    ("application/xml", "xml"), ("application/json", "json"), ("application/pdf", "pdf"),
    ("video/mp4", "mp4")]

/-- The reference to the `n`-th payload: the extension is that of the media type without its
parameters, and `bin` for an unknown type. -/
def reference (n : ℕ) (mimeType : String) : String :=
  let known := Text.folded (String.ofList (mimeType.toList.takeWhile (· != ';')))
  "embed_" ++ toString n ++ "." ++ (extensions.lookup known).getD "bin"

/-- A shelf gives out these references. -/
theorem filename_eq (n : ℕ) (mimeType : String) : filename n mimeType = reference n mimeType := by
  unfold filename reference fileExtension
  generalize Text.folded (String.ofList (mimeType.toList.takeWhile (· != ';'))) = known
  congr 1
  -- each line of the table is a case of its own, and the last case is a type in none of them
  split
  case h_13 =>
    have hnone : extensions.lookup known = none :=
      List.lookup_eq_none_iff.mpr (by simp_all [extensions])
    rw [hnone]
    rfl
  all_goals rfl

/-- The number in a reference: the digits in front of the dot. -/
def number (filename : String) : ℕ :=
  Nat.ofDigitChars 10 ((filename.toList.drop 6).takeWhile (· != '.')) 0

/-- The characters of a name: its number stands between the fixed beginning and a dot. -/
theorem toList_filename (n : ℕ) (mimeType : String) :
    (filename n mimeType).toList =
      "embed_".toList ++ (Nat.toDigits 10 n ++ '.' :: (fileExtension mimeType).toList) := by
  simp [filename, Nat.toString_eq_repr, Nat.toList_repr]

/-- The number of a name can be read off it, whatever the media type is. -/
@[simp]
theorem number_filename (n : ℕ) (mimeType : String) : number (filename n mimeType) = n := by
  have hdigits : ∀ c ∈ Nat.toDigits 10 n, (c != '.') = true := by
    intro c hc
    have hdigit := Nat.isDigit_of_mem_toDigits (by omega) (by omega) hc
    rw [bne_iff_ne]
    rintro rfl
    exact absurd hdigit (by decide)
  have hprefix : "embed_".toList.length = 6 := rfl
  rw [number, toList_filename, ← hprefix, List.drop_left, List.takeWhile_append_of_pos hdigits]
  simp

/-- The number of a reference can be read off it, whatever the media type is. -/
@[simp]
theorem number_reference (n : ℕ) (mimeType : String) : number (reference n mimeType) = n := by
  rw [← filename_eq, number_filename]

/-! ## Payloads in order of arrival -/

/-- Payloads as they are kept under the numbers behind `n`. -/
def numbered (n : ℕ) : List (String × Bytes) → List Attachment
  | [] => []
  | (mimeType, data) :: payloads =>
    { filename := reference (n + 1) mimeType, mimeType, data } :: numbered (n + 1) payloads

/-- Payloads that follow others are numbered on. -/
theorem numbered_append (n : ℕ) (ps qs : List (String × Bytes)) :
    numbered n (ps ++ qs) = numbered n ps ++ numbered (n + ps.length) qs := by
  induction ps generalizing n with
  | nil => rfl
  | cons p ps ih =>
      rw [List.cons_append, numbered, ih, numbered, List.cons_append, List.length_cons,
        Nat.add_right_comm, Nat.add_assoc]

/-- Each payload gets one number. -/
theorem length_numbered (n : ℕ) (ps : List (String × Bytes)) :
    (numbered n ps).length = ps.length := by
  induction ps generalizing n with
  | nil => rfl
  | cons p ps ih => rw [numbered, List.length_cons, ih, List.length_cons]

/-- The payload at a position is kept under the reference of this position. -/
theorem getElem?_numbered (n : ℕ) (ps : List (String × Bytes)) (i : ℕ) :
    (numbered n ps)[i]? = ps[i]?.map fun p =>
      { filename := reference (n + i + 1) p.1, mimeType := p.1, data := p.2 } := by
  induction ps generalizing n i with
  | nil => rfl
  | cons p ps ih =>
      cases i with
      | zero => rfl
      | succ i =>
          rw [numbered, List.getElem?_cons_succ, ih, List.getElem?_cons_succ, Nat.add_right_comm n,
            Nat.add_assoc n]

/-- The numbers of payloads follow each other. -/
theorem map_number_numbered (n : ℕ) (ps : List (String × Bytes)) :
    (numbered n ps).map (fun a => number a.filename) = List.range' (n + 1) ps.length := by
  induction ps generalizing n with
  | nil => rfl
  | cons p ps ih =>
      rw [numbered, List.map_cons, ih, number_reference, List.length_cons, List.range'_succ]

/-- No two payloads get the same reference. -/
theorem nodup_numbered (n : ℕ) (ps : List (String × Bytes)) :
    ((numbered n ps).map Attachment.filename).Nodup := by
  refine List.Nodup.of_map number ?_
  rw [List.map_map]
  exact (map_number_numbered n ps).symm ▸ List.nodup_range'

/-! ## Getting them back -/

/-- Where references differ, each attachment is found under its own. -/
theorem get?_of_nodup {s : Shelf} (h : (s.stored.map Attachment.filename).Nodup) {a : Attachment}
    (ha : a ∈ s.stored) : s.get? a.filename = some a := by
  have hsome : (s.stored.find? (·.filename == a.filename)).isSome :=
    List.find?_isSome.mpr ⟨a, ha, beq_self_eq_true _⟩
  obtain ⟨found, hfound⟩ := Option.isSome_iff_exists.mp hsome
  have hname : found.filename = a.filename := by simpa using List.find?_some hfound
  rw [get?, hfound,
    List.inj_on_of_nodup_map h (List.mem_of_find?_eq_some hfound) ha hname]

end Shelf

end ScenarioResults
