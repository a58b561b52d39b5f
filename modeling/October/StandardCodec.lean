import October.FileJournal

/-!
The codec the file journal runs with: standard base64, and JSON arrays of strings
written without blanks. Base64 texts need no escapes, so reading them back is
splitting at the commas and taking the quotes off; text that is not of this shape
is refused.
-/
namespace October.StandardCodec

def quote (text : Bytes) : Bytes := 34 :: (text ++ [34])

def toJson (texts : List Bytes) : Bytes :=
  91 :: ([44].intercalate (texts.map quote) ++ [93])

def unquote : Bytes → Option Bytes
  | [] => none
  | b :: rest =>
    if b = 34 ∧ rest.getLast? = some 34 ∧ 34 ∉ rest.dropLast ∧ 92 ∉ rest.dropLast then
      some rest.dropLast
    else none

def fromJson : Bytes → Option (List Bytes)
  | [] => none
  | b :: rest =>
    if b = 91 ∧ rest.getLast? = some 93 then
      if rest.dropLast = [] then some []
      else (rest.dropLast.splitOn 44).mapM unquote
    else none

theorem unquote_quote (text : Bytes) (h : 34 ∉ text) (h' : 92 ∉ text) :
    unquote (quote text) = some text := by
  simp [unquote, quote, h, h']

theorem mapM_unquote (texts : List Bytes) (h : ∀ text ∈ texts, 34 ∉ text ∧ 92 ∉ text) :
    (texts.map quote).mapM unquote = some texts := by
  induction texts with
  | nil => rfl
  | cons text rest ih =>
    have htext := h text List.mem_cons_self
    have hrest := ih (fun t ht => h t (List.mem_cons_of_mem _ ht))
    simp [unquote_quote text htext.1 htext.2, hrest]

theorem intercalate_quote_ne_nil (text : Bytes) (texts : List Bytes) :
    [44].intercalate ((text :: texts).map quote) ≠ [] := by
  cases texts <;> simp [List.intercalate, quote]

theorem fromJson_toJson (texts : List Bytes)
    (h : ∀ text ∈ texts, 34 ∉ text ∧ 92 ∉ text ∧ 44 ∉ text) :
    fromJson (toJson texts) = some texts := by
  cases texts with
  | nil => rfl
  | cons text rest =>
    have hcomma : ∀ piece ∈ (text :: rest).map quote, (44 : UInt8) ∉ piece := by
      intro piece hpiece
      obtain ⟨t, ht, rfl⟩ := List.mem_map.mp hpiece
      simpa [quote] using (h t ht).2.2
    have hsplit := List.splitOn_intercalate 44 hcomma (by simp)
    have hread := mapM_unquote (text :: rest) (fun t ht => ⟨(h t ht).1, (h t ht).2.1⟩)
    simp only [fromJson, toJson, List.getLast?_append, List.getLast?_singleton,
      Option.some_or, and_self, if_true, List.dropLast_concat, intercalate_quote_ne_nil,
      if_false, hsplit, hread]

inductive Phase where
  | value
  | inside
  | after

def quotedList : Phase → Bytes → Bool
  | .value, [] => false
  | .value, b :: rest => if b = 34 then quotedList .inside rest else false
  | .inside, [] => false
  | .inside, b :: rest => if b = 34 then quotedList .after rest else quotedList .inside rest
  | .after, [] => true
  | .after, b :: rest => if b = 44 then quotedList .value rest else false

theorem quotedList_text (text rest : Bytes) (h : 34 ∉ text) :
    quotedList .inside (text ++ 34 :: rest) = quotedList .after rest := by
  induction text with
  | nil => simp [quotedList]
  | cons b text ih =>
    have hb : b ≠ 34 := fun heq => h (by simp [heq])
    have htext : 34 ∉ text := fun hmem => h (List.mem_cons_of_mem _ hmem)
    simp only [List.cons_append, quotedList, hb, if_false]
    exact ih htext

theorem quotedList_intercalate (text : Bytes) (texts : List Bytes)
    (h : ∀ t ∈ text :: texts, 34 ∉ t) :
    quotedList .value ([44].intercalate ((text :: texts).map quote)) = true := by
  induction texts generalizing text with
  | nil =>
    have htext := quotedList_text text [] (h text List.mem_cons_self)
    simpa [List.intercalate, quote, quotedList] using htext
  | cons next texts ih =>
    have htext := quotedList_text text (44 :: [44].intercalate ((next :: texts).map quote))
      (h text List.mem_cons_self)
    have hnext := ih next (fun t ht => h t (List.mem_cons_of_mem _ ht))
    have hshape : [44].intercalate ((text :: next :: texts).map quote) =
        34 :: (text ++ 34 :: 44 :: [44].intercalate ((next :: texts).map quote)) := by
      simp [List.intercalate, quote]
    rw [hshape]
    simp only [quotedList, if_true, htext]
    exact hnext

/-- A bracket is read only inside a string, and the quote after it ends that. -/
theorem quotedList_bracket (phase : Phase) (front rest : Bytes) (b : UInt8) (h : b ≠ 44) :
    quotedList phase (front ++ 91 :: 34 :: b :: rest) = false := by
  induction front generalizing phase with
  | nil => cases phase <;> simp [quotedList, h]
  | cons a front ih =>
    cases phase with
    | value =>
      simp only [List.cons_append, quotedList, ih]
      split <;> rfl
    | inside =>
      simp only [List.cons_append, quotedList, ih]
      split <;> rfl
    | after =>
      simp only [List.cons_append, quotedList, ih]
      split <;> rfl

theorem quote_of_unquote (piece text : Bytes) (h : unquote piece = some text) :
    piece = quote text ∧ 34 ∉ text := by
  cases piece with
  | nil => contradiction
  | cons b rest =>
    simp only [unquote] at h
    split at h
    · rename_i hquotes
      obtain ⟨rfl, hlast, hfree, _⟩ := hquotes
      obtain rfl := Option.some.inj h
      refine ⟨?_, hfree⟩
      have hne : rest ≠ [] := by
        rintro rfl
        contradiction
      have hsplit := List.dropLast_append_getLast? 34 hlast
      rw [quote, hsplit]
    · contradiction

theorem quote_of_mapM_unquote (pieces texts : List Bytes) (h : pieces.mapM unquote = some texts) :
    pieces = texts.map quote ∧ ∀ text ∈ texts, 34 ∉ text := by
  induction pieces generalizing texts with
  | nil =>
    obtain rfl : texts = [] := by simpa using h.symm
    simp
  | cons piece rest ih =>
    simp only [List.mapM_cons, Option.pure_def, Option.bind_eq_bind,
      Option.bind_eq_some_iff] at h
    obtain ⟨text, htext, tail, htail, heq⟩ := h
    obtain rfl := Option.some.inj heq
    obtain ⟨hpiece, hfree⟩ := quote_of_unquote piece text htext
    obtain ⟨hrest, hall⟩ := ih tail htail
    refine ⟨by rw [hpiece, hrest, List.map_cons], ?_⟩
    intro t ht
    rcases List.mem_cons.mp ht with rfl | ht
    · exact hfree
    · exact hall t ht

/-- An array of strings is not read behind the opening of another one. -/
theorem fromJson_front (front text : Bytes) (texts : List Bytes) (h : 44 ∉ text) :
    fromJson (91 :: front ++ toJson (text :: texts)) = none := by
  have hbracket : ∃ b rest, b ≠ 44 ∧
      [44].intercalate ((text :: texts).map quote) = 34 :: b :: rest := by
    cases text with
    | nil =>
      cases texts with
      | nil => exact ⟨34, [], by decide, rfl⟩
      | cons next texts => exact ⟨34, _, by decide, by simp [List.intercalate, quote]; rfl⟩
    | cons b text =>
      have hb : b ≠ 44 := fun heq => h (by simp [heq])
      cases texts with
      | nil => exact ⟨b, _, hb, by simp [List.intercalate, quote]; rfl⟩
      | cons next texts => exact ⟨b, _, hb, by simp [List.intercalate, quote]; rfl⟩
  obtain ⟨b, rest, hb, hlist⟩ := hbracket
  have hwhole : front ++ toJson (text :: texts) = (front ++ 91 :: 34 :: b :: rest) ++ [93] := by
    rw [toJson, hlist]
    simp
  cases hread : fromJson (91 :: front ++ toJson (text :: texts)) with
  | none => rfl
  | some read =>
    rw [List.cons_append, hwhole] at hread
    simp only [fromJson, List.getLast?_concat, List.dropLast_concat, and_self, if_true,
      List.append_eq_nil_iff, List.cons_ne_nil, and_false, if_false] at hread
    obtain ⟨hpieces, hfree⟩ := quote_of_mapM_unquote _ _ hread
    have hjoin : [44].intercalate ((front ++ 91 :: 34 :: b :: rest).splitOn 44) =
        front ++ 91 :: 34 :: b :: rest := List.intercalate_splitOn 44
    rw [hpieces] at hjoin
    cases read with
    | nil =>
      have hlen := congrArg List.length hjoin
      simp [List.intercalate] at hlen
    | cons first more =>
      have hgood := quotedList_intercalate first more hfree
      rw [hjoin, quotedList_bracket .value front rest b hb] at hgood
      contradiction

theorem notMem_encode (bytes : Bytes) (b : UInt8) (h : ¬ Base64.Plain b) :
    b ∉ Base64.encode bytes := fun hb => h (Base64.plain_encode bytes b hb)

end October.StandardCodec

namespace October

open StandardCodec

/-- Base64 in the standard alphabet over compact JSON. -/
def standardCodec : Codec where
  encode := Base64.encode
  decode := Base64.decode
  toJson := toJson
  fromJson := fromJson
  decode_encode := Base64.decode_encode
  fromJson_toJson events := by
    apply fromJson_toJson
    intro text htext
    obtain ⟨event, _, rfl⟩ := List.mem_map.mp htext
    refine ⟨notMem_encode event 34 ?_, notMem_encode event 92 ?_, notMem_encode event 44 ?_⟩ <;>
      simp [Base64.Plain]
  encode_ascii bytes b hb := (Base64.plain_encode bytes b hb).2.1
  encode_newline bytes := notMem_encode bytes newline (by simp [Base64.Plain, newline])
  encode_ne_nil bytes h := fun h' => h ((Base64.encode_eq_nil bytes).mp h')
  toJson_ne_nil texts := by simp [toJson]

end October
