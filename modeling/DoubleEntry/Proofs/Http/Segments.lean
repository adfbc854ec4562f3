import DoubleEntry.Proofs.Http.Routing
import DoubleEntry.Proofs.Text.Escapes

/-!
# Ids as segments of paths

An id is any text, and a segment of a path has it with escapes: each byte stands for itself, if it
may, or is written as a percent sign and two digits. The first round of decoding leaves the escapes
that could be taken for something else, the second one decodes them. So the id that is asked for is
the one that was written, whatever slashes and percent signs it has, and the table of resources tells
it from its own words.
-/

namespace DoubleEntry.Http

open Text (split)
open Text.Percent
open Text.Utf8 (encode decodeLossy)

/-! ## Segments -/

/-- Whether a byte may stand for itself in a segment: letters, digits and some signs. -/
def standsInSegment (b : UInt8) : Bool :=
  let c := Char.ofNat b.toNat
  c.isAlphanum || ['-', '.', '_', '~', '!', '$', '&', '\x27', '(', ')', '*', '+', ',', ';', '=', ':',
    '@'].contains c

/-- Bytes that may stand for themselves are bytes of ASCII and none that has a meaning in a URL. -/
theorem standsInSegment_facts : ∀ b : UInt8, standsInSegment b = true →
    b.toNat < 0x80 ∧ b ≠ mark ∧ b ≠ 47 ∧ b ≠ 35 ∧ b ≠ 63 :=
  forall_byte (by decide +kernel)

/-- Whether a segment of a path is a text with escapes. -/
def Encodes (segment id : String) : Prop :=
  Escapes (fun b => standsInSegment b = true) (encode id) (encode segment)

/-- Every id can be written as a segment. -/
theorem exists_encodes (id : String) : ∃ segment, Encodes segment id := by
  obtain ⟨cs, hcs⟩ := exists_escapes (fun b => standsInSegment b = true) (encode id)
  refine ⟨String.ofList cs, ?_⟩
  rwa [Encodes, encode, encode, String.toList_ofList]

/-- Bytes beyond ASCII are kept in no round of decoding. -/
theorem beyond_facts : ∀ b : UInt8, 0x80 ≤ b.toNat → isKeptInPath b = false ∧ b ≠ mark :=
  forall_byte (by decide +kernel)

/-- A byte of ASCII is no slash when its character is none. -/
theorem ne_slash_of_byte {c : Char} {b : UInt8} (hbyte : String.utf8EncodeChar c = [b])
    (hb : b ≠ 47) : '/' ≠ c := by
  rintro rfl
  exact hb (List.singleton_inj.mp hbyte).symm

/-- What the first round of decoding leaves of a text with escapes: a text without slashes that is
the same one with the escapes that are left. -/
structure FirstRound (cs : List Char) (written : List UInt8) (ds : List Char) : Prop where
  decode_eq : decode isKeptInPath written = ds.flatMap String.utf8EncodeChar
  no_slash : '/' ∉ ds
  escapes : Escapes (· ≠ mark) (cs.flatMap String.utf8EncodeChar)
    (ds.flatMap String.utf8EncodeChar)

namespace FirstRound

variable {cs ds : List Char} {c : Char} {written left : List UInt8} {b : UInt8}

/-- Nothing is left of nothing. -/
theorem nil : FirstRound [] [] [] where
  decode_eq := by simp [decode]
  no_slash := List.not_mem_nil
  escapes := .nil

/-- A character of one byte that is decoded stands for itself, unless it has a meaning in paths. -/
theorem ascii (hbyte : String.utf8EncodeChar c = [b]) (hmark : b ≠ mark) (hslash : b ≠ 47)
    (hdecode : decode isKeptInPath written = b :: decode isKeptInPath left)
    (h : FirstRound cs left ds) : FirstRound (c :: cs) written (c :: ds) where
  decode_eq := by rw [hdecode, h.decode_eq, List.flatMap_cons, hbyte, List.singleton_append]
  no_slash := List.not_mem_cons_of_ne_of_not_mem (ne_slash_of_byte hbyte hslash) h.no_slash
  escapes := by
    rw [List.flatMap_cons, List.flatMap_cons, hbyte]
    exact .plain hmark h.escapes

/-- An escape whose byte is kept is left to the second round. -/
theorem kept {high low : UInt8} (hbyte : String.utf8EncodeChar c = [b])
    (hb : byte? high low = some b) (hkept : isKeptInPath b = true) (h : FirstRound cs left ds) :
    FirstRound (c :: cs) (mark :: high :: low :: left)
      ('%' :: Char.ofNat high.toNat :: Char.ofNat low.toNat :: ds) where
  decode_eq := by rw [decode_escape_of_kept hb hkept, h.decode_eq, flatMap_escape hb]
  no_slash := by
    obtain ⟨hhigh, hlow⟩ := isSome_digit?_of_byte? hb
    obtain ⟨hhigh, -, hhighSlash, -⟩ := digit_facts high hhigh
    obtain ⟨hlow, -, hlowSlash, -⟩ := digit_facts low hlow
    have hhighByte := Text.Utf8.utf8EncodeChar_ofNat hhigh
    have hlowByte := Text.Utf8.utf8EncodeChar_ofNat hlow
    apply List.not_mem_cons_of_ne_of_not_mem (by decide)
    apply List.not_mem_cons_of_ne_of_not_mem (ne_slash_of_byte hhighByte hhighSlash)
    exact List.not_mem_cons_of_ne_of_not_mem (ne_slash_of_byte hlowByte hlowSlash) h.no_slash
  escapes := by
    rw [List.flatMap_cons, hbyte, flatMap_escape hb]
    exact .escape hb h.escapes

/-- The bytes of a character beyond ASCII that are decoded stand for themselves. -/
theorem beyond (hc : 0x80 ≤ c.toNat)
    (hdecode : decode isKeptInPath written =
      String.utf8EncodeChar c ++ decode isKeptInPath left)
    (h : FirstRound cs left ds) : FirstRound (c :: cs) written (c :: ds) where
  decode_eq := by rw [hdecode, h.decode_eq, List.flatMap_cons]
  no_slash := by
    refine List.not_mem_cons_of_ne_of_not_mem ?_ h.no_slash
    rintro rfl
    exact absurd hc (by decide)
  escapes := by
    rw [List.flatMap_cons, List.flatMap_cons]
    exact h.escapes.append fun b hb =>
      (beyond_facts b (Text.Utf8.le_of_mem_utf8EncodeChar hc b hb)).2

end FirstRound

/-- The first round of decoding leaves a segment. -/
theorem exists_firstRound {cs : List Char} {written : List UInt8}
    (h : Escapes (fun b => standsInSegment b = true) (cs.flatMap String.utf8EncodeChar) written) :
    ∃ ds, FirstRound cs written ds := by
  induction cs generalizing written with
  | nil =>
    cases h
    exact ⟨[], .nil⟩
  | cons c rest ih =>
    rw [List.flatMap_cons] at h
    by_cases hascii : c.toNat < 0x80
    · have hbyte := Text.Utf8.utf8EncodeChar_of_lt hascii
      generalize UInt8.ofNat c.toNat = b at hbyte
      rw [hbyte] at h
      cases h with
      | plain hb h =>
        obtain ⟨-, hmark, hslash, -⟩ := standsInSegment_facts b hb
        obtain ⟨ds, hds⟩ := ih h
        exact ⟨_, .ascii hbyte hmark hslash (decode_cons_of_ne hmark _ _) hds⟩
      | escape hb h =>
        obtain ⟨ds, hds⟩ := ih h
        cases hkept : isKeptInPath b with
        | true => exact ⟨_, .kept hbyte hb hkept hds⟩
        | false =>
          have hne : b ≠ mark ∧ b ≠ 47 := by
            constructor <;> rintro rfl <;> exact absurd hkept (by decide)
          exact ⟨_, .ascii hbyte hne.1 hne.2 (decode_escape hb hkept _) hds⟩
    · have hc := Nat.le_of_not_lt hascii
      have hbytes := Text.Utf8.le_of_mem_utf8EncodeChar hc
      have hstands : ∀ b ∈ String.utf8EncodeChar c, ¬standsInSegment b = true := fun b hb hs =>
        absurd (standsInSegment_facts b hs).1 (Nat.not_lt_of_le (hbytes b hb))
      obtain ⟨left, hleft, hdecode⟩ := h.exists_rest hstands fun b hb =>
        (beyond_facts b (hbytes b hb)).1
      obtain ⟨ds, hds⟩ := ih hleft
      exact ⟨_, .beyond hc hdecode hds⟩

/-- A segment that is a text with escapes is no place for a query or a fragment. -/
theorem Encodes.notMem {segment id : String} (h : Encodes segment id) :
    '#' ∉ segment.toList ∧ '?' ∉ segment.toList := by
  have hbytes : ∀ {bytes written : List UInt8},
      Escapes (fun b => standsInSegment b = true) bytes written →
        ∀ b ∈ written, b ≠ 35 ∧ b ≠ 63 := by
    intro bytes written h
    induction h with
    | nil => exact fun _ hb => absurd hb List.not_mem_nil
    | plain hb _ ih => exact List.forall_mem_cons.mpr ⟨(standsInSegment_facts _ hb).2.2.2, ih⟩
    | escape hb _ ih =>
      obtain ⟨hhigh, hlow⟩ := isSome_digit?_of_byte? hb
      exact List.forall_mem_cons.mpr ⟨by decide, List.forall_mem_cons.mpr
        ⟨(digit_facts _ hhigh).2.2.2, List.forall_mem_cons.mpr ⟨(digit_facts _ hlow).2.2.2, ih⟩⟩⟩
  constructor
  · intro hmem
    exact (hbytes h 35 (List.mem_flatMap.mpr ⟨'#', hmem, by decide⟩)).1 rfl
  · intro hmem
    exact (hbytes h 63 (List.mem_flatMap.mpr ⟨'?', hmem, by decide⟩)).2 rfl

/-- The path of an account that is asked for has the segment that the first round leaves. -/
theorem Encodes.exists_pathOf_eq {segment id : String} (h : Encodes segment id) :
    ∃ ds : List Char, pathOf ("/v1/accounts/" ++ segment) =
        String.ofList ("/v1/accounts/".toList ++ ds) ∧ '/' ∉ ds ∧
      Escapes (· ≠ mark) (encode id) (ds.flatMap String.utf8EncodeChar) ∧
      ((∀ b ∈ encode id, isKeptInPath b = false) → ds = id.toList) := by
  obtain ⟨ds, hds, hslash, hescapes⟩ := exists_firstRound h
  obtain ⟨hfragment, hquery⟩ := h.notMem
  have hwhole : (Text.cut '?' (withoutFragment ("/v1/accounts/" ++ segment))).1 =
      "/v1/accounts/".toList ++ segment.toList := by
    have hfragment' : '#' ∉ "/v1/accounts/".toList ++ segment.toList :=
      List.not_mem_append (by decide) hfragment
    have hquery' : '?' ∉ "/v1/accounts/".toList ++ segment.toList :=
      List.not_mem_append (by decide) hquery
    rw [withoutFragment, String.toList_append, Text.cut_of_notMem hfragment',
      Text.cut_of_notMem hquery']
  have hfront : ∀ b ∈ "/v1/accounts/".toList.flatMap String.utf8EncodeChar, b ≠ mark := by
    decide +kernel
  refine ⟨ds, ?_, hslash, hescapes, fun hkept => ?_⟩
  · dsimp only [pathOf]
    rw [hwhole, encode, String.toList_ofList, List.flatMap_append, decode_append hfront]
    change decodeLossy (_ ++ decode isKeptInPath (encode segment)) = _
    rw [hds, ← List.flatMap_append, Text.Utf8.decodeLossy_flatMap_utf8EncodeChar]
  · have hbytes := Escapes.decode_eq h (fun b hb => (standsInSegment_facts b hb).2.1) hkept
    have hsame := congrArg decodeLossy (hds.symm.trans hbytes)
    rw [encode, Text.Utf8.decodeLossy_flatMap_utf8EncodeChar,
      Text.Utf8.decodeLossy_flatMap_utf8EncodeChar] at hsame
    exact String.ofList_injective hsame

/-- The value of a segment is the text that it has with escapes. -/
theorem segmentValue_of_escapes {ds : List Char} {id : String}
    (h : Escapes (· ≠ mark) (encode id) (ds.flatMap String.utf8EncodeChar)) :
    segmentValue (String.ofList ds) = id := by
  have hbytes : decodeAll (ds.flatMap String.utf8EncodeChar) = encode id :=
    h.decode_eq (fun _ hb => hb) fun _ _ => rfl
  rw [segmentValue, decodeText, encode, String.toList_ofList, hbytes, encode,
    Text.Utf8.decodeLossy_flatMap_utf8EncodeChar, String.ofList_toList]

/-! ## The resource of an account -/

/-- A request for an account leads to it by its id, unless the id is a word of the table. -/
theorem route_account {segment id : String} (h : Encodes segment id) (hid : id ≠ "") :
    route "GET" (pathOf ("/v1/accounts/" ++ segment)) =
      .ledger (if id = "_search" then .error 405 else .ok (.account id)) := by
  obtain ⟨ds, hpath, hslash, hescapes, hsame⟩ := h.exists_pathOf_eq
  have hvalue := segmentValue_of_escapes hescapes
  have hsegments : (split '/' (pathOf ("/v1/accounts/" ++ segment)).toList).map String.ofList =
      ["", "v1", "accounts", String.ofList ds] := by
    have hletters : "/v1/accounts/".toList ++ ds =
        [] ++ '/' :: (['v', '1'] ++ '/' :: ("accounts".toList ++ '/' :: ds)) := rfl
    rw [hpath, String.toList_ofList, hletters, Text.split_append_cons (by decide),
      Text.split_append_cons (by decide), Text.split_append_cons (by decide),
      Text.split_of_notMem hslash]
    rfl
  have hroute : route "GET" (pathOf ("/v1/accounts/" ++ segment)) =
      .ledger (actionFor "GET" ["accounts", String.ofList ds]) := by
    unfold route
    rw [hsegments]
    rfl
  have hnotEmpty : (String.ofList ds).isEmpty = false := by
    rw [Bool.eq_false_iff]
    intro hempty
    rw [String.isEmpty_iff.mp hempty] at hvalue
    exact hid (hvalue.symm.trans (by decide +kernel))
  rw [hroute]
  by_cases hsearch : id = "_search"
  · rw [if_pos hsearch]
    subst hsearch
    rw [hsame (by decide +kernel)]
    rfl
  · have hother : String.ofList ds ≠ "_search" := by
      intro hword
      rw [hword] at hvalue
      exact hsearch (hvalue.symm.trans (by decide +kernel))
    rw [if_neg hsearch]
    simp [actionFor, resources, fits, hnotEmpty, hother, parameterOf, hvalue, List.lookup]

end DoubleEntry.Http
