import LinkedSchema.Proofs.Locations
import LinkedSchema.Uri.Basic
import Mathlib.Tactic.Common

/-!
# URIs of files

`fileUri` spells the names on the way down to a file as a URI, byte by byte: a byte that has a
meaning of its own in a path, or none in ASCII, is escaped, every other one stands for itself. Both
halves of the way back are shown one piece at a time. A text is `Stable` when normalizing escapes
leaves it alone whatever follows, and it `Spells` bytes when decoding yields them whatever follows;
an encoded byte, an encoded name and a whole path get these from their pieces.

So `Uri.ofFile?` returns `fileUri`, whose path decodes to the text of the location. Resolving a path
against the URI of a file does to the segments of the URI what `Location.resolve` does to names
(`UriReference.resolve_path`), as long as no segment is empty and the last one is the name of a
file: a URI keeps an empty segment, and a slash where `.` or `..` ends it.
-/

namespace LinkedSchema

namespace Uri

/-! ## Bytes -/

/-- A byte as it stands in a path made from the names of files. -/
def encodeByte (n : Nat) : List Char :=
  if isEscapedInPath n then ['%', Text.hexDigit (n / 16), Text.hexDigit (n % 16)]
  else [Char.ofNat n]

/-- An escaped byte is read back from its digits, and is no unreserved character. -/
theorem byte_of_escaped : ∀ n < 256, isEscapedInPath n = true →
    byte? (Text.hexDigit (n / 16)) (Text.hexDigit (n % 16)) = some n ∧
      (n < 128 && isUnreserved (Char.ofNat n)) = false ∧
      Text.hexDigit (n / 16) ≠ '/' ∧ Text.hexDigit (n % 16) ≠ '/' := by
  decide +kernel

/-- A byte that is not escaped is a character of one byte with no meaning of its own. -/
theorem byte_of_not_escaped : ∀ n < 256, isEscapedInPath n = false →
    Char.ofNat n ≠ '%' ∧ Char.ofNat n ≠ '/' ∧
      String.utf8EncodeChar (Char.ofNat n) = [UInt8.ofNat n] := by
  decide +kernel

/-- A character that may stand in a segment is one byte that is not escaped. -/
theorem byte_of_segmentChar : ∀ n < 128, isSegmentChar (Char.ofNat n) = true →
    isEscapedInPath n = false := by
  decide +kernel

/-- Unreserved characters are ASCII. -/
theorem toNat_lt_of_isUnreserved {c : Char} (h : isUnreserved c = true) : c.toNat < 128 := by
  have hcases : ((((((c.isUpper || c.isLower) || c.isDigit) || c == '-') || c == '.') ||
      c == '_') || c == '~') = true := h
  -- Letters and digits end at `z`; what else is unreserved is one of four characters.
  have hbelow : ∀ high : Char, high.toNat < 128 → c.val ≤ high.val → c.toNat < 128 :=
    fun high hhigh hle => Nat.lt_of_le_of_lt (UInt32.le_iff_toNat_le.mp hle) hhigh
  simp only [Bool.or_eq_true, beq_iff_eq] at hcases
  rcases hcases with ((((((hupper | hlower) | hdigit) | rfl) | rfl) | rfl) | rfl)
  · have hrange : 'A'.val ≤ c.val ∧ c.val ≤ 'Z'.val := of_decide_eq_true hupper
    exact hbelow 'Z' (by decide) hrange.2
  · exact hbelow 'z' (by decide) (of_decide_eq_true (Bool.and_eq_true_iff.mp hlower).2)
  · exact hbelow '9' (by decide) (of_decide_eq_true (Bool.and_eq_true_iff.mp hdigit).2)
  all_goals decide

/-- The characters that may stand in a segment are ASCII. -/
theorem toNat_lt_of_isSegmentChar {c : Char} (h : isSegmentChar c = true) : c.toNat < 128 := by
  rcases Bool.or_eq_true_iff.mp h with hun | hother
  · exact toNat_lt_of_isUnreserved hun
  · have hall : ("!$&'()*+,;=:@".toList.all fun d => decide (d.toNat < 128)) = true := by decide
    exact of_decide_eq_true (List.all_eq_true.mp hall c (List.contains_iff_mem.mp hother))

/-- The bytes of an array from a place on, read one at a time behind those already read. -/
theorem toList_loop (bytes : ByteArray) : ∀ (k i : Nat) (read : List UInt8), bytes.size - i = k →
    ByteArray.toList.loop bytes i read = read.reverse ++ bytes.data.toList.drop i := by
  intro k
  induction k with
  | zero =>
    intro i read hk
    have hi : ¬i < bytes.size := by omega
    have hlen : bytes.data.toList.length ≤ i := by
      rw [Array.length_toList]
      exact Nat.le_of_not_lt hi
    rw [ByteArray.toList.loop.eq_def, if_neg hi, List.drop_eq_nil_of_le hlen, List.append_nil]
  | succ k ih =>
    intro i read hk
    have hi : i < bytes.size := by omega
    have hlen : i < bytes.data.toList.length := by
      rw [Array.length_toList]
      exact hi
    have hget : bytes.get! i = bytes.data.toList[i] := by
      rw [Array.getElem_toList]
      exact getElem!_pos bytes.data i hi
    rw [ByteArray.toList.loop.eq_def, if_pos hi, ih (i + 1) _ (by omega),
      List.drop_eq_getElem_cons hlen, List.reverse_cons, List.append_assoc, hget]
    rfl

/-- The list of an array of bytes is that of the array under it. -/
theorem toList_byteArray (bytes : ByteArray) : bytes.toList = bytes.data.toList := by
  rw [ByteArray.toList, toList_loop bytes _ 0 [] rfl]
  rfl

/-- The bytes of a text are those of its characters. -/
theorem toList_toUTF8 (s : String) : s.toUTF8.toList = s.toList.flatMap String.utf8EncodeChar := by
  have hutf : s.toUTF8 = (s.toList.flatMap String.utf8EncodeChar).toByteArray :=
    String.utf8Encode_toList.symm
  rw [toList_byteArray, hutf, List.toList_data_toByteArray]

/-- The bytes of a text are the text again. -/
theorem fromUTF8?_utf8EncodeChar (s : String) :
    String.fromUTF8? ⟨(s.toList.flatMap String.utf8EncodeChar).toArray⟩ = some s := by
  have hbytes : (⟨(s.toList.flatMap String.utf8EncodeChar).toArray⟩ : ByteArray) =
      s.toByteArray := by
    have hdata : (s.toList.flatMap String.utf8EncodeChar).toByteArray.data =
        (s.toList.flatMap String.utf8EncodeChar).toArray := by
      rw [← Array.toList_inj, List.toList_data_toByteArray]
    rw [← hdata]
    exact String.utf8Encode_toList
  rw [hbytes, String.fromUTF8?, dif_pos s.isValidUTF8]
  rfl

/-! ## Pieces of a path -/

/-- Normalizing escapes leaves a piece alone, whatever follows. -/
def Stable (piece : List Char) : Prop :=
  ∀ rest, normalizeEscapes (piece ++ rest) = piece ++ normalizeEscapes rest

/-- A piece stands for bytes, whatever follows. -/
def Spells (piece : List Char) (bytes : List UInt8) : Prop :=
  ∀ rest, decodeBytes (piece ++ rest) = bytes ++ decodeBytes rest

/-- Two pieces that normalizing leaves alone are left alone together. -/
theorem Stable.append {first second : List Char} (h : Stable first) (h' : Stable second) :
    Stable (first ++ second) := fun rest => by
  rw [List.append_assoc, h, h', List.append_assoc]

/-- Two pieces together stand for the bytes of the first and then those of the second. -/
theorem Spells.append {first second : List Char} {bytes others : List UInt8}
    (h : Spells first bytes) (h' : Spells second others) :
    Spells (first ++ second) (bytes ++ others) := fun rest => by
  rw [List.append_assoc, h, h', List.append_assoc]

/-- The empty piece is left alone. -/
theorem Stable.nil : Stable [] := fun _ => rfl

/-- The empty piece stands for no bytes. -/
theorem Spells.nil : Spells [] [] := fun _ => rfl

/-- A character other than the percent sign stands alone. -/
theorem stable_of_ne {c : Char} (h : c ≠ '%') : Stable [c] := fun rest => by
  rw [List.singleton_append, normalizeEscapes]
  · rfl
  · rintro high low others rfl
    exact absurd rfl h

/-- A character other than the percent sign stands for its own bytes. -/
theorem spells_of_ne {c : Char} (h : c ≠ '%') :
    Spells [c] (String.utf8EncodeChar c) := fun rest => by
  rw [List.singleton_append, decodeBytes]
  · rw [toList_toUTF8, String.toList_ofList, List.flatMap_singleton]
  · rintro high low others rfl
    exact absurd rfl h

/-- An encoded byte is left alone: its escape, if it has one, is the normal one. -/
theorem stable_encodeByte {n : Nat} (h : n < 256) : Stable (encodeByte n) := by
  unfold encodeByte
  split
  · next he =>
    obtain ⟨hbyte, hno, -⟩ := byte_of_escaped n h he
    intro rest
    rw [List.cons_append, List.cons_append, List.cons_append, List.nil_append, normalizeEscapes,
      hbyte]
    dsimp only
    rw [hno]
    rfl
  · next he =>
    obtain ⟨hpercent, -⟩ := byte_of_not_escaped n h (by simpa using he)
    exact stable_of_ne hpercent

/-- An encoded byte stands for the byte. -/
theorem spells_encodeByte {n : Nat} (h : n < 256) : Spells (encodeByte n) [UInt8.ofNat n] := by
  unfold encodeByte
  split
  · next he =>
    obtain ⟨hbyte, -⟩ := byte_of_escaped n h he
    intro rest
    rw [List.cons_append, List.cons_append, List.cons_append, List.nil_append, decodeBytes, hbyte]
    rfl
  · next he =>
    obtain ⟨hpercent, -, hone⟩ := byte_of_not_escaped n h (by simpa using he)
    rw [← hone]
    exact spells_of_ne hpercent

/-- An encoded byte has no slash: the one that stands for a slash is escaped. -/
theorem slash_notMem_encodeByte {n : Nat} (h : n < 256) : '/' ∉ encodeByte n := by
  unfold encodeByte
  split
  · next he =>
    obtain ⟨-, -, hhigh, hlow⟩ := byte_of_escaped n h he
    simp [Ne.symm hhigh, Ne.symm hlow]
  · next he =>
    obtain ⟨-, hslash, -⟩ := byte_of_not_escaped n h (by simpa using he)
    simp [Ne.symm hslash]

/-! ## Names -/

/-- A file name as it stands in a path. -/
def encodeName (name : String) : List Char :=
  (name.toList.flatMap String.utf8EncodeChar).flatMap fun b => encodeByte b.toNat

/-- A segment of a path is its file name with each byte encoded. -/
theorem encodeSegment_eq (name : String) :
    encodeSegment name = String.ofList (encodeName name) := by
  unfold encodeSegment encodeName
  rw [toList_toUTF8]
  rfl

/-- Pieces that are left alone one by one are left alone one behind the other. -/
theorem stable_flatMap {α : Type} {f : α → List Char} {xs : List α} (h : ∀ x ∈ xs, Stable (f x)) :
    Stable (xs.flatMap f) := by
  induction xs with
  | nil => exact .nil
  | cons x rest ih =>
    obtain ⟨hx, hrest⟩ := List.forall_mem_cons.mp h
    rw [List.flatMap_cons]
    exact hx.append (ih hrest)

/-- Pieces one behind the other stand for the bytes of each in turn. -/
theorem spells_flatMap {α : Type} {f : α → List Char} {g : α → List UInt8} {xs : List α}
    (h : ∀ x ∈ xs, Spells (f x) (g x)) : Spells (xs.flatMap f) (xs.flatMap g) := by
  induction xs with
  | nil => exact .nil
  | cons x rest ih =>
    obtain ⟨hx, hrest⟩ := List.forall_mem_cons.mp h
    rw [List.flatMap_cons, List.flatMap_cons]
    exact hx.append (ih hrest)

/-- An encoded name is left alone. -/
theorem stable_encodeName (name : String) : Stable (encodeName name) :=
  stable_flatMap fun b _ => stable_encodeByte b.toNat_lt

/-- An encoded name stands for the bytes of the name. -/
theorem spells_encodeName (name : String) :
    Spells (encodeName name) (name.toList.flatMap String.utf8EncodeChar) := by
  have h : Spells (encodeName name)
      ((name.toList.flatMap String.utf8EncodeChar).flatMap fun b => [UInt8.ofNat b.toNat]) :=
    spells_flatMap fun b _ => spells_encodeByte b.toNat_lt
  simpa using h

/-- An encoded name has no slash, so it is one segment of a path. -/
theorem slash_notMem_encodeName (name : String) : '/' ∉ encodeName name := by
  unfold encodeName
  rw [List.mem_flatMap]
  rintro ⟨b, -, hb⟩
  exact slash_notMem_encodeByte b.toNat_lt hb

/-- A name can be read back. -/
theorem encodeName_injective {name name' : String} (h : encodeName name = encodeName name') :
    name = name' := by
  have hbytes : name.toList.flatMap String.utf8EncodeChar =
      name'.toList.flatMap String.utf8EncodeChar := by
    have hs := spells_encodeName name []
    have hs' := spells_encodeName name' []
    rw [h, hs'] at hs
    simpa using hs.symm
  have hname := fromUTF8?_utf8EncodeChar name
  rw [hbytes, fromUTF8?_utf8EncodeChar] at hname
  exact (Option.some.inj hname).symm

/-- Characters that may stand in a segment stand for themselves. -/
theorem encodeName_of_segmentChars {name : String} (h : ∀ c ∈ name.toList, isSegmentChar c = true) :
    encodeName name = name.toList := by
  unfold encodeName
  generalize name.toList = cs at h ⊢
  induction cs with
  | nil => rfl
  | cons c rest ih =>
    obtain ⟨hc, hrest⟩ := List.forall_mem_cons.mp h
    have hlt := toNat_lt_of_isSegmentChar hc
    have hof : Char.ofNat c.toNat = c := Char.ofNat_toNat c
    have hesc := byte_of_segmentChar c.toNat hlt (by rw [hof]; exact hc)
    obtain ⟨-, -, hone⟩ := byte_of_not_escaped c.toNat (by omega) hesc
    rw [hof] at hone
    rw [List.flatMap_cons, hone, List.flatMap_append, ih hrest, List.flatMap_singleton]
    have hnat : (UInt8.ofNat c.toNat).toNat = c.toNat :=
      UInt8.toNat_ofNat_of_lt (Nat.lt_trans hlt (by decide))
    rw [hnat, encodeByte, if_neg (by simp [hesc]), hof]
    rfl

/-! ## Paths -/

/-- The text of a path from the root is made of its segments, each behind a slash. -/
theorem slash_joinSegments {segments : List (List Char)} (h : segments ≠ []) :
    '/' :: normalizePath.joinSegments segments = segments.flatMap ('/' :: ·) := by
  induction segments with
  | nil => exact absurd rfl h
  | cons segment rest ih =>
    cases rest with
    | nil => simp [normalizePath.joinSegments]
    | cons next others =>
      rw [normalizePath.joinSegments, ih (List.cons_ne_nil _ _), List.flatMap_cons]
      · rfl
      · exact List.cons_ne_nil _ _

/-- Joined strings are joined segments. -/
theorem toList_intercalate (pieces : List String) :
    (String.intercalate "/" pieces).toList =
      normalizePath.joinSegments (pieces.map String.toList) := by
  induction pieces with
  | nil => rfl
  | cons piece rest ih =>
    cases rest with
    | nil => rw [String.intercalate_singleton]; rfl
    | cons next others =>
      rw [String.intercalate_cons_cons, String.toList_append, String.toList_append, ih]
      simp [normalizePath.joinSegments]

/-- Segments without slashes come back when they are joined and cut. -/
theorem splitAt_joinSegments {segments : List (List Char)} (hne : segments ≠ [])
    (h : ∀ segment ∈ segments, '/' ∉ segment) :
    Text.splitAt '/' (normalizePath.joinSegments segments) = segments := by
  induction segments with
  | nil => exact absurd rfl hne
  | cons segment rest ih =>
    obtain ⟨hsegment, hrest⟩ := List.forall_mem_cons.mp h
    cases rest with
    | nil => exact Text.splitAt_of_notMem hsegment
    | cons next others =>
      rw [normalizePath.joinSegments, Text.splitAt_append, Text.splitAt_of_notMem hsegment,
        ih (List.cons_ne_nil _ _) hrest]
      · rfl
      · exact List.cons_ne_nil _ _

/-- Segments that are left alone are left alone between slashes. -/
theorem stable_joinSegments {segments : List (List Char)}
    (h : ∀ segment ∈ segments, Stable segment) :
    Stable (normalizePath.joinSegments segments) := by
  induction segments with
  | nil => exact .nil
  | cons segment rest ih =>
    obtain ⟨hsegment, hrest⟩ := List.forall_mem_cons.mp h
    cases rest with
    | nil => exact hsegment
    | cons next others =>
      have hslash : Stable ['/'] := stable_of_ne (by decide)
      exact hsegment.append (hslash.append (ih hrest))

/-- The path of a location. -/
def filePath (names : List String) : String :=
  String.ofList ('/' :: normalizePath.joinSegments (names.map encodeName))

/-- The URI of a file. -/
def fileUri (names : List String) : Uri := ⟨"file", some "", filePath names, none⟩

/-- A name that is no dots is put on top of those in front. -/
theorem removeDots_encodeName {c : String} (here : c ≠ ".") (up : c ≠ "..")
    (done rest : List (List Char)) :
    removeDots done (encodeName c :: rest) = removeDots (encodeName c :: done) rest := by
  have hdot : encodeName c ≠ ['.'] := fun hc => here (encodeName_injective hc)
  have hdots : encodeName c ≠ ['.', '.'] := fun hc => up (encodeName_injective hc)
  rw [removeDots]
  · exact fun he => absurd he hdot
  · exact fun he => absurd he hdots
  · exact fun he => absurd he hdot
  · exact fun he => absurd he hdots

/-- Carrying out dots is reading components. -/
theorem removeDots_map_encodeName {components : List String} (hne : ∀ c ∈ components, c ≠ "")
    (hlast : ∀ c, components.getLast? = some c → c ≠ "." ∧ c ≠ "..") (names : List String) :
    removeDots (names.map encodeName).reverse (components.map encodeName) =
      (components.foldl Location.step names).map encodeName := by
  induction components generalizing names with
  | nil => simp [removeDots]
  | cons c rest ih =>
    obtain ⟨hc, hrest⟩ := List.forall_mem_cons.mp hne
    have hlast' : ∀ d, rest.getLast? = some d → d ≠ "." ∧ d ≠ ".." := by
      intro d hd
      refine hlast d ?_
      rw [List.getLast?_cons, hd]
      rfl
    have hmore : rest = [] → c ≠ "." ∧ c ≠ ".." := by
      rintro rfl
      exact hlast c rfl
    rw [List.map_cons, List.foldl_cons]
    by_cases h1 : c = "."
    · -- A dot is not the last component, where it would leave a slash behind.
      subst h1
      have hr : rest ≠ [] := fun he => (hmore he).1 rfl
      obtain ⟨d, others, rfl⟩ := List.exists_cons_of_ne_nil hr
      exact ih hrest hlast' names
    by_cases h2 : c = ".."
    · -- Two dots take away the name in front, which is the first one of those done.
      subst h2
      have hr : rest ≠ [] := fun he => (hmore he).2 rfl
      obtain ⟨d, others, rfl⟩ := List.exists_cons_of_ne_nil hr
      have hdrop : (names.map encodeName).reverse.drop 1 =
          (names.dropLast.map encodeName).reverse := by
        rw [List.drop_one, List.tail_reverse, List.map_dropLast]
      have hstep : removeDots (names.map encodeName).reverse
          (encodeName ".." :: (d :: others).map encodeName) =
            removeDots ((names.map encodeName).reverse.drop 1) ((d :: others).map encodeName) := rfl
      rw [hstep, hdrop]
      exact ih hrest hlast' names.dropLast
    · have hnames : encodeName c :: (names.map encodeName).reverse =
          ((names ++ [c]).map encodeName).reverse := by simp
      have hlocation : Location.step names c = names ++ [c] := by
        rw [Location.step, if_neg (not_or.mpr ⟨hc, h1⟩), if_neg h2]
      rw [removeDots_encodeName h1 h2, hnames, hlocation]
      exact ih hrest hlast' (names ++ [c])

/-- Components that name a file are not empty and do not end in dots. -/
structure NamesFile (components : List String) : Prop where
  /-- No component is empty. -/
  nonempty : ∀ c ∈ components, c ≠ ""
  /-- The last one is no `.` or `..`. -/
  last : ∀ c, components.getLast? = some c → c ≠ "." ∧ c ≠ ".."

/-- A path becomes that of the location that its components lead to. -/
theorem normalizePath_filePath {components : List String} (h : NamesFile components) :
    normalizePath (filePath components) = filePath (components.foldl Location.step []) := by
  -- Normalizing escapes changes nothing, so that only the dots are left to carry out.
  have hstable : Stable ('/' :: normalizePath.joinSegments (components.map encodeName)) := by
    have hslash : Stable ['/'] := stable_of_ne (by decide)
    refine hslash.append (stable_joinSegments fun segment hs => ?_)
    obtain ⟨c, -, rfl⟩ := List.mem_map.mp hs
    exact stable_encodeName c
  have hescapes := hstable []
  rw [List.append_nil, normalizeEscapes, List.append_nil] at hescapes
  unfold normalizePath filePath
  rw [String.toList_ofList, hescapes]
  cases components with
  | nil => rfl
  | cons c rest =>
    have hsplit : Text.splitAt '/'
        ('/' :: normalizePath.joinSegments ((c :: rest).map encodeName)) =
        [] :: (c :: rest).map encodeName := by
      rw [Text.splitAt, if_pos rfl, splitAt_joinSegments (by simp)]
      intro segment hs
      obtain ⟨d, -, rfl⟩ := List.mem_map.mp hs
      exact slash_notMem_encodeName d
    have hdots : removeDots [] ((c :: rest).map encodeName) =
        ((c :: rest).foldl Location.step []).map encodeName :=
      removeDots_map_encodeName h.nonempty h.last []
    rw [hsplit]
    dsimp only
    rw [hdots]

/-- The URI of a file becomes that of the location that its components lead to. -/
theorem normalize_fileUri {components : List String} (h : NamesFile components) :
    normalize (fileUri components) = fileUri (components.foldl Location.step []) := by
  have hscheme : Text.lower "file" = "file" := by decide
  have hauthority : Text.lower (normalizePart "") = "" := by decide
  simp only [normalize, fileUri, normalizePath_filePath h, hscheme, Option.map_some, hauthority,
    Option.map_none]

end Uri

open Uri

/-- A normal location names a file. -/
theorem Location.Normal.namesFile {l : Location} (h : l.Normal) : NamesFile l.names where
  nonempty c hc := (h c hc).nonempty
  last c hc := ⟨(h c (List.mem_of_getLast? hc)).here, (h c (List.mem_of_getLast? hc)).up⟩

/-- The URI that is made from the names of a normal location. -/
theorem Uri.ofFile?_eq_some {l : Location} (h : l.Normal) {u : Uri}
    (hu : ofFile? l.names = some u) : u = fileUri l.names := by
  have hpath : "/" ++ String.intercalate "/" (l.names.map encodeSegment) = filePath l.names := by
    rw [← String.toList_inj, String.toList_append, toList_intercalate, filePath,
      String.toList_ofList, List.map_map]
    have hmap : String.toList ∘ encodeSegment = encodeName := by
      funext name
      rw [Function.comp_apply, encodeSegment_eq, String.toList_ofList]
    rw [hmap, String.toList_ofList]
    rfl
  unfold ofFile? at hu
  rw [hpath] at hu
  dsimp only at hu
  split at hu
  · have hnormalize := normalize_fileUri h.namesFile
    rw [Location.foldl_step_names h, List.nil_append] at hnormalize
    have hsome : normalize (fileUri l.names) = u := Option.some.inj hu
    rw [← hsome, hnormalize]
  · cases hu

/-- The path of the URI of a file stands for the text of the location. -/
theorem Uri.spells_filePath (names : List String) :
    Spells (filePath names).toList
      ((Location.render ⟨names⟩).toList.flatMap String.utf8EncodeChar) := by
  have hslash : Spells ['/'] (String.utf8EncodeChar '/') := spells_of_ne (by decide)
  have hjoin : ∀ pieces : List String,
      Spells (normalizePath.joinSegments (pieces.map encodeName))
        ((normalizePath.joinSegments (pieces.map String.toList)).flatMap
          String.utf8EncodeChar) := by
    intro pieces
    induction pieces with
    | nil => exact .nil
    | cons piece rest ih =>
      cases rest with
      | nil => exact spells_encodeName piece
      | cons next others =>
        have hbytes : (normalizePath.joinSegments
            ((piece :: next :: others).map String.toList)).flatMap String.utf8EncodeChar =
              piece.toList.flatMap String.utf8EncodeChar ++ (String.utf8EncodeChar '/' ++
                (normalizePath.joinSegments
                  ((next :: others).map String.toList)).flatMap String.utf8EncodeChar) := by
          rw [← List.flatMap_cons, ← List.flatMap_append]
          rfl
        rw [hbytes]
        exact (spells_encodeName piece).append (hslash.append ih)
  rw [filePath, String.toList_ofList, Location.render, String.toList_append, toList_intercalate,
    List.flatMap_append]
  exact hslash.append (hjoin names)

/-- The URI of a file names the location of the file. -/
theorem Uri.filePath?_fileUri (names : List String) :
    filePath? (fileUri names) = some (Location.render ⟨names⟩) := by
  have hdecode : decode? (filePath names) = some (Location.render ⟨names⟩) := by
    have hbytes := spells_filePath names []
    rw [List.append_nil, decodeBytes, List.append_nil] at hbytes
    rw [decode?, hbytes, fromUTF8?_utf8EncodeChar]
  have hhead : (Location.render ⟨names⟩).toList.head? = some '/' := by
    rw [Location.render, String.toList_append]
    rfl
  have hlocal : ((fileUri names).scheme = "file" && (((fileUri names).authority.getD "") == "" ||
      (fileUri names).authority == some "localhost")) = true := rfl
  rw [filePath?, hlocal, if_pos rfl]
  have hpath : (fileUri names).path = filePath names := rfl
  rw [hpath, hdecode, Option.map_some, if_pos hhead]

/-! ## Paths of references -/

/-- Joined segments start with a character of the first one. -/
theorem Uri.head_joinSegments {segment : String} (hne : segment ≠ "") (others : List String) :
    ∃ c rest, normalizePath.joinSegments ((segment :: others).map String.toList) = c :: rest ∧
      c ∈ segment.toList := by
  have hlist : segment.toList ≠ [] := by simpa using hne
  obtain ⟨c, rest, hc⟩ := List.exists_cons_of_ne_nil hlist
  have hmem : c ∈ segment.toList := hc ▸ List.mem_cons_self ..
  cases others with
  | nil => exact ⟨c, rest, hc, hmem⟩
  | cons next others =>
    refine ⟨c, rest ++ '/' :: normalizePath.joinSegments ((next :: others).map String.toList), ?_,
      hmem⟩
    rw [← List.cons_append, ← hc]
    rfl

/-- What is kept of the path of a base: the directory of its location, with a slash behind it. -/
theorem Uri.kept_filePath (names : List String) :
    ((filePath names).toList.reverse.dropWhile (· ≠ '/')).reverse =
      (names.dropLast.map encodeName).flatMap ('/' :: ·) ++ ['/'] := by
  -- From the end, the last name goes up to the slash in front of it.
  have hcut : ∀ front last : List Char, '/' ∉ last →
      ((front ++ '/' :: last).reverse.dropWhile (· ≠ '/')).reverse = front ++ ['/'] := by
    intro front last hlast
    have hdrop : (last.reverse ++ '/' :: front.reverse).dropWhile (· ≠ '/') =
        '/' :: front.reverse := by
      rw [List.dropWhile_append_of_pos]
      · simp
      · intro c hc
        have : c ≠ '/' := fun he => hlast (he ▸ List.mem_reverse.mp hc)
        simpa using this
    simp only [List.reverse_append, List.reverse_cons, List.append_assoc, List.singleton_append]
    rw [hdrop]
    simp
  rw [filePath, String.toList_ofList]
  rcases List.eq_nil_or_concat names with rfl | ⟨front, last, rfl⟩
  · rfl
  · rw [List.concat_eq_append]
    have hne : (front ++ [last]).map encodeName ≠ [] := by simp
    rw [slash_joinSegments hne, List.map_append, List.flatMap_append, List.dropLast_concat]
    have hlast : ([last].map encodeName).flatMap ('/' :: ·) = '/' :: encodeName last := by simp
    rw [hlast]
    exact hcut _ _ (slash_notMem_encodeName last)

/-- The segments of a path in which every character stands for itself. -/
structure SegmentPath (segments : List String) (path : String) : Prop where
  /-- The path is made of the segments, behind a slash if it starts at the root. -/
  joined : path = String.intercalate "/" segments ∨ path = "/" ++ String.intercalate "/" segments
  /-- There is a segment. -/
  ne_nil : segments ≠ []
  /-- The segments are not empty, and the last one is the name of a file. -/
  names : NamesFile segments
  /-- The characters may stand in a segment. -/
  allowed : ∀ segment ∈ segments, ∀ c ∈ segment.toList, isSegmentChar c = true

/-- The segments of a relative path of unreserved characters. -/
structure UnreservedPath (segments : List String) (path : String) : Prop where
  /-- The path is made of the segments. -/
  joined : path = String.intercalate "/" segments
  /-- There is a segment. -/
  ne_nil : segments ≠ []
  /-- The segments are not empty, and the last one is the name of a file. -/
  names : NamesFile segments
  /-- The characters are unreserved. -/
  unreserved : ∀ segment ∈ segments, ∀ c ∈ segment.toList, isUnreserved c = true

/-- Unreserved characters may stand in a segment. -/
theorem Uri.isSegmentChar_of_isUnreserved {c : Char} (h : isUnreserved c = true) :
    isSegmentChar c = true := by
  rw [isSegmentChar, h, Bool.true_or]

/-- Unreserved characters stand for themselves. -/
theorem UnreservedPath.segmentPath {segments : List String} {path : String}
    (h : UnreservedPath segments path) : SegmentPath segments path where
  joined := .inl h.joined
  ne_nil := h.ne_nil
  names := h.names
  allowed segment hs c hc := isSegmentChar_of_isUnreserved (h.unreserved segment hs c hc)

namespace SegmentPath

variable {segments : List String} {path : String}

/-- The segments have no slash. -/
theorem slash (h : SegmentPath segments path) : ∀ segment ∈ segments, '/' ∉ segment.toList :=
  fun segment hs hc => absurd (h.allowed segment hs '/' hc) (by decide)

/-- The segments are spelled as they are. -/
theorem map_encodeName (h : SegmentPath segments path) :
    segments.map encodeName = segments.map String.toList :=
  List.map_congr_left fun segment hs => encodeName_of_segmentChars (h.allowed segment hs)

/-- The path is relative, or it is the path of a location. -/
theorem toList_cases (h : SegmentPath segments path) :
    path.toList = normalizePath.joinSegments (segments.map String.toList) ∨
      path = filePath segments := by
  rcases h.joined with hpath | hpath
  · rw [hpath, toList_intercalate]
    exact .inl rfl
  · right
    have hjoin : path.toList = '/' :: normalizePath.joinSegments (segments.map String.toList) := by
      rw [hpath, String.toList_append, toList_intercalate]
      rfl
    rw [filePath, h.map_encodeName, ← hjoin, String.ofList_toList]

/-- The joined segments start with a character that is no slash. -/
theorem head (h : SegmentPath segments path) :
    ∃ c rest, normalizePath.joinSegments (segments.map String.toList) = c :: rest ∧ c ≠ '/' := by
  obtain ⟨segment, others, rfl⟩ := List.exists_cons_of_ne_nil h.ne_nil
  obtain ⟨c, rest, hc, hmem⟩ :=
    head_joinSegments (h.names.nonempty segment (List.mem_cons_self ..)) others
  exact ⟨c, rest, hc, fun he => h.slash segment (List.mem_cons_self ..) (he ▸ hmem)⟩

/-- The path is not empty. -/
theorem ne_empty (h : SegmentPath segments path) : path ≠ "" := by
  rintro rfl
  rcases h.toList_cases with hc | hc
  · obtain ⟨c, rest, hjoin, -⟩ := h.head
    rw [hjoin] at hc
    cases hc
  · exact absurd hc.symm (by simp [filePath])

/-- The path has no authority in front. -/
theorem cutAuthority (h : SegmentPath segments path) :
    UriReference.cutAuthority path = (none, path) := by
  obtain ⟨c, rest, hjoin, hne⟩ := h.head
  unfold UriReference.cutAuthority
  split
  · next others hslashes =>
    exfalso
    rcases h.toList_cases with hc | hc
    · rw [hslashes, hjoin] at hc
      exact hne (List.cons.inj hc).1.symm
    · rw [hc, filePath, String.toList_ofList, h.map_encodeName, hjoin] at hslashes
      exact hne (List.cons.inj (List.cons.inj hslashes).2).1
  · rfl

/-- Behind the directory of a normal location, the segments still name a file. -/
theorem namesFile (h : SegmentPath segments path) {l : Location} (hl : l.Normal) :
    NamesFile (l.names.dropLast ++ segments) where
  nonempty c hc := by
    rcases List.mem_append.mp hc with hc | hc
    · exact (hl c (List.dropLast_subset _ hc)).nonempty
    · exact h.names.nonempty c hc
  last c hc := by
    have hsome : segments.getLast?.isSome := List.getLast?_isSome.mpr h.ne_nil
    rw [List.getLast?_append, Option.or_of_isSome hsome] at hc
    exact h.names.last c hc

/-- Merged with the path of a base, the segments take the place of its last name. -/
theorem mergePath_fileUri (h : SegmentPath segments path)
    (hrelative : path.toList = normalizePath.joinSegments (segments.map String.toList))
    (names : List String) :
    UriReference.mergePath (fileUri names) path = filePath (names.dropLast ++ segments) := by
  have hbase : ((fileUri names).authority.isSome && (fileUri names).path.isEmpty) = false := by
    have hne : filePath names ≠ "" := by simp [filePath]
    simpa [fileUri] using hne
  have hne : (names.dropLast ++ segments).map encodeName ≠ [] := by simp [h.ne_nil]
  have hsegments : segments.map String.toList ≠ [] := by simp [h.ne_nil]
  rw [UriReference.mergePath, hbase, if_neg Bool.false_ne_true, ← String.toList_inj,
    String.toList_append, String.toList_ofList, fileUri, kept_filePath, hrelative, filePath,
    String.toList_ofList, slash_joinSegments hne, List.append_assoc, List.singleton_append,
    slash_joinSegments hsegments, List.map_append, List.flatMap_append, h.map_encodeName]

/-- A location resolves a relative path by reading its segments below the directory. -/
theorem names_resolve (h : SegmentPath segments path)
    (hrelative : path.toList = normalizePath.joinSegments (segments.map String.toList))
    {l : Location} (hl : l.Normal) :
    (l.parent.resolve path).names = (l.names.dropLast ++ segments).foldl Location.step [] := by
  have habs : isAbsolutePath path = false := by
    obtain ⟨c, rest, hjoin, hne⟩ := h.head
    simpa [isAbsolutePath, hrelative, hjoin] using hne
  have hsplit : pathComponents path = segments := by
    rw [← toList_intercalate, String.toList_inj] at hrelative
    rw [hrelative]
    exact Text.split_intercalate h.ne_nil h.slash
  have hparent : l.names.dropLast.foldl Location.step [] = l.parent.names :=
    Location.foldl_step_names hl.parent []
  unfold Location.resolve
  dsimp only
  rw [habs, if_neg Bool.false_ne_true, hsplit, List.foldl_append, hparent]

/-- A location resolves a path from the root by reading its segments. -/
theorem names_resolve_filePath (h : SegmentPath segments (filePath segments)) (l : Location) :
    (l.resolve (filePath segments)).names = segments.foldl Location.step [] := by
  have habs : isAbsolutePath (filePath segments) = true := by simp [isAbsolutePath, filePath]
  have hsplit : pathComponents (filePath segments) = "" :: segments := by
    have hjoined : filePath segments = String.intercalate "/" ("" :: segments) := by
      rw [← String.toList_inj, toList_intercalate, filePath, String.toList_ofList,
        h.map_encodeName]
      obtain ⟨segment, others, hs⟩ := List.exists_cons_of_ne_nil h.ne_nil
      rw [hs]
      rfl
    rw [hjoined]
    refine Text.split_intercalate (List.cons_ne_nil _ _) (List.forall_mem_cons.mpr ⟨?_, h.slash⟩)
    exact List.not_mem_nil
  unfold Location.resolve
  dsimp only
  rw [habs, if_pos rfl, hsplit]
  rfl

end SegmentPath

/-- A path read in a document of a file leads to the URI of the file to which it leads from the
directory of the document. -/
theorem UriReference.resolve_path {l : Location} (hl : l.Normal) {r : UriReference}
    {segments : List String} (hpath : SegmentPath segments r.path) (hscheme : r.scheme = none)
    (hauthority : r.authority = none) (hquery : r.query = none) :
    r.resolve (fileUri l.names) = fileUri (l.parent.resolve r.path).names := by
  have hempty : r.path.isEmpty = false := by simpa using hpath.ne_empty
  unfold resolve
  rw [hscheme, hauthority]
  dsimp only
  rw [hempty, if_neg Bool.false_ne_true, hquery]
  rcases hpath.toList_cases with hrelative | habsolute
  · have hhead : r.path.toList.head? ≠ some '/' := by
      obtain ⟨c, rest, hjoin, hne⟩ := hpath.head
      simpa [hrelative, hjoin] using hne
    rw [if_neg hhead, hpath.mergePath_fileUri hrelative, hpath.names_resolve hrelative hl]
    exact normalize_fileUri (hpath.namesFile hl)
  · rw [habsolute] at hpath ⊢
    have hhead : (filePath segments).toList.head? = some '/' := by simp [filePath]
    rw [if_pos hhead, hpath.names_resolve_filePath]
    exact normalize_fileUri hpath.names

/-- A reference without a path means the document in which it stands. -/
theorem UriReference.resolve_empty {l : Location} (hl : l.Normal) {r : UriReference}
    (hpath : r.path = "") (hscheme : r.scheme = none) (hauthority : r.authority = none)
    (hquery : r.query = none) : r.resolve (fileUri l.names) = fileUri l.names := by
  have hnormalize := normalize_fileUri hl.namesFile
  rw [Location.foldl_step_names hl, List.nil_append] at hnormalize
  rw [resolve, hscheme, hauthority]
  dsimp only
  rw [hpath, hquery]
  exact hnormalize

end LinkedSchema
