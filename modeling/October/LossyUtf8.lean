import Mathlib.Data.List.Basic

/-!
Decoding UTF-8 with a replacement character for what is invalid. A text that is encoded
and decoded in chunks of some bytes comes back just if no character's bytes are cut: each
part of a cut character becomes a replacement character of its own.
-/

namespace LossyUtf8

def replacement : Char := '\uFFFD'

/-- A character that is not complete: `need` bytes come after the next one, which is at
least `lo` and at most `hi`. -/
structure Pending where
  need : ℕ
  lo : ℕ
  hi : ℕ
  value : ℕ

inductive Start where
  | whole (c : Char)
  | more (p : Pending)
  | invalid

def start (b : UInt8) : Start :=
  let v := b.toNat
  if v < 0x80 then .whole (Char.ofNat v)
  else if 0xC2 ≤ v ∧ v ≤ 0xDF then .more ⟨0, 0x80, 0xBF, v - 0xC0⟩
  else if v = 0xE0 then .more ⟨1, 0xA0, 0xBF, 0⟩
  else if (0xE1 ≤ v ∧ v ≤ 0xEC) ∨ v = 0xEE ∨ v = 0xEF then .more ⟨1, 0x80, 0xBF, v - 0xE0⟩
  else if v = 0xED then .more ⟨1, 0x80, 0x9F, 0xD⟩
  else if v = 0xF0 then .more ⟨2, 0x90, 0xBF, 0⟩
  else if 0xF1 ≤ v ∧ v ≤ 0xF3 then .more ⟨2, 0x80, 0xBF, v - 0xF0⟩
  else if v = 0xF4 then .more ⟨2, 0x80, 0x8F, 4⟩
  else .invalid

/-- The characters of the bytes that follow an incomplete character, or none. The longest
part of an invalid sequence that could begin a character is replaced as a whole. -/
def decodeFrom : Option Pending → List UInt8 → List Char
  | none, [] => []
  | some _, [] => [replacement]
  | none, b :: rest =>
    match start b with
    | .whole c => c :: decodeFrom none rest
    | .more p => decodeFrom (some p) rest
    | .invalid => replacement :: decodeFrom none rest
  | some p, b :: rest =>
    if p.lo ≤ b.toNat ∧ b.toNat ≤ p.hi then
      let value := p.value * 64 + b.toNat % 64
      match p.need with
      | 0 => Char.ofNat value :: decodeFrom none rest
      | need + 1 => decodeFrom (some ⟨need, 0x80, 0xBF, value⟩) rest
    else
      replacement ::
        match start b with
        | .whole c => c :: decodeFrom none rest
        | .more p => decodeFrom (some p) rest
        | .invalid => replacement :: decodeFrom none rest

def decode (bytes : List UInt8) : List Char := decodeFrom none bytes

def encode (text : List Char) : List UInt8 := text.flatMap String.utf8EncodeChar

def chunks (size : ℕ) (bytes : List UInt8) : List (List UInt8) :=
  (List.range ((bytes.length + size - 1) / size)).map
    (fun k => (bytes.drop (k * size)).take size)

def decodeChunks (size : ℕ) (bytes : List UInt8) : List Char :=
  (chunks size bytes).flatMap decode

/-- No character's bytes lie on both sides of a multiple of `size`. -/
def Aligned (size : ℕ) (text : List Char) : Prop :=
  ∀ before c after, text = before ++ c :: after →
    (encode before).length % size + (String.utf8EncodeChar c).length ≤ size

section Characters

inductive Completes (c : Char) : Pending → List UInt8 → Prop
  | last (lo hi value : ℕ) (b : UInt8) (hlo : lo ≤ b.toNat) (hhi : b.toNat ≤ hi)
      (hvalue : Char.ofNat (value * 64 + b.toNat % 64) = c) :
    Completes c ⟨0, lo, hi, value⟩ [b]
  | next (need lo hi value : ℕ) (b : UInt8) (bs : List UInt8) (hlo : lo ≤ b.toNat)
      (hhi : b.toNat ≤ hi)
      (h : Completes c ⟨need, 0x80, 0xBF, value * 64 + b.toNat % 64⟩ bs) :
    Completes c ⟨need + 1, lo, hi, value⟩ (b :: bs)

variable {c : Char} {p : Pending} {bs : List UInt8}

theorem Completes.decodeFrom_append (h : Completes c p bs) (rest : List UInt8) :
    decodeFrom (some p) (bs ++ rest) = c :: decode rest := by
  induction h with
  | last lo hi value b hlo hhi hvalue => simp [decodeFrom, hlo, hhi, hvalue, decode]
  | next need lo hi value b bs hlo hhi h ih => simpa [decodeFrom, hlo, hhi] using ih

/-- A cut character is replaced. -/
theorem Completes.decodeFrom_take (h : Completes c p bs) {k : ℕ} (hk : k < bs.length) :
    decodeFrom (some p) (bs.take k) = [replacement] := by
  induction h generalizing k with
  | last lo hi value b hlo hhi hvalue =>
    have hzero : k = 0 := by simpa using hk
    rw [hzero]
    rfl
  | next need lo hi value b bs hlo hhi h ih =>
    cases k with
    | zero => rfl
    | succ k => simpa [decodeFrom, hlo, hhi] using ih (by simpa using hk)

theorem start_two {b : UInt8} (hlo : 0xC2 ≤ b.toNat) (hhi : b.toNat ≤ 0xDF) :
    start b = .more ⟨0, 0x80, 0xBF, b.toNat - 0xC0⟩ := by
  simp only [start]
  rw [if_neg (by omega), if_pos ⟨hlo, hhi⟩]

theorem start_three {b : UInt8} (hlo : 0xE0 ≤ b.toNat) (hhi : b.toNat ≤ 0xEF) :
    start b = .more ⟨1, if b.toNat = 0xE0 then 0xA0 else 0x80,
      if b.toNat = 0xED then 0x9F else 0xBF, b.toNat - 0xE0⟩ := by
  simp only [start]
  rw [if_neg (by omega), if_neg (by omega)]
  by_cases hfirst : b.toNat = 0xE0
  · rw [if_pos hfirst, if_pos hfirst, if_neg (by omega), hfirst]
  · rw [if_neg hfirst, if_neg hfirst]
    by_cases hsurrogate : b.toNat = 0xED
    · rw [if_neg (by omega), if_pos hsurrogate, if_pos hsurrogate, hsurrogate]
    · rw [if_pos (by omega), if_neg hsurrogate]

theorem start_four {b : UInt8} (hlo : 0xF0 ≤ b.toNat) (hhi : b.toNat ≤ 0xF4) :
    start b = .more ⟨2, if b.toNat = 0xF0 then 0x90 else 0x80,
      if b.toNat = 0xF4 then 0x8F else 0xBF, b.toNat - 0xF0⟩ := by
  simp only [start]
  rw [if_neg (by omega), if_neg (by omega), if_neg (by omega), if_neg (by omega),
    if_neg (by omega)]
  by_cases hfirst : b.toNat = 0xF0
  · rw [if_pos hfirst, if_pos hfirst, if_neg (by omega), hfirst]
  · rw [if_neg hfirst, if_neg hfirst]
    by_cases hlast : b.toNat = 0xF4
    · rw [if_neg (by omega), if_pos hlast, if_pos hlast, hlast]
    · rw [if_pos (by omega), if_neg hlast]

/-- A byte that continues a character begins none. -/
theorem start_continuation {b : UInt8} (hlo : 0x80 ≤ b.toNat) (hhi : b.toNat < 0xC0) :
    start b = .invalid := by
  simp only [start]
  rw [if_neg (by omega), if_neg (by omega), if_neg (by omega), if_neg (by omega),
    if_neg (by omega), if_neg (by omega), if_neg (by omega), if_neg (by omega)]

def Begins (c : Char) : Prop :=
  ∃ b bs p, String.utf8EncodeChar c = b :: bs ∧ start b = .more p ∧ Completes c p bs ∧
    ∀ d ∈ bs, 0x80 ≤ d.toNat ∧ d.toNat < 0xC0

theorem continuation_toNat (n : ℕ) : (UInt8.ofNat (n % 64 + 0x80)).toNat = n % 64 + 0x80 :=
  UInt8.toNat_ofNat_of_lt (by simp only [UInt8.size]; omega)

theorem continuation_range (n : ℕ) : 0x80 ≤ (UInt8.ofNat (n % 64 + 0x80)).toNat ∧
    (UInt8.ofNat (n % 64 + 0x80)).toNat < 0xC0 := by
  rw [continuation_toNat]
  omega

theorem ofNat_val {n : ℕ} (h : n = c.val.toNat) : Char.ofNat n = c := h ▸ Char.ofNat_toNat c

theorem begins_two (hlo : 0x7f < c.val.toNat) (hhi : c.val.toNat ≤ 0x7ff) : Begins c := by
  have hb : (UInt8.ofNat (c.val.toNat / 64 % 32 + 0xC0)).toNat = c.val.toNat / 64 % 32 + 0xC0 :=
    UInt8.toNat_ofNat_of_lt (by simp only [UInt8.size]; omega)
  refine ⟨_, _, _, ?_, start_two (b := UInt8.ofNat (c.val.toNat / 64 % 32 + 0xC0))
    (by omega) (by omega), .last _ _ _ (UInt8.ofNat (c.val.toNat % 64 + 0x80))
      (continuation_range _).1 (Nat.le_of_lt_succ (continuation_range _).2) (ofNat_val ?_),
    List.forall_mem_singleton.mpr (continuation_range _)⟩
  · rw [String.utf8EncodeChar, if_neg (by omega), if_pos hhi]
  · rw [continuation_toNat, hb]
    omega

theorem begins_three (hlo : 0x7ff < c.val.toNat) (hhi : c.val.toNat ≤ 0xffff) : Begins c := by
  have hvalid : c.val.toNat < 0xD800 ∨ 0xDFFF < c.val.toNat ∧ c.val.toNat < 0x110000 := c.valid
  have hb : (UInt8.ofNat (c.val.toNat / 4096 % 16 + 0xE0)).toNat =
      c.val.toNat / 4096 % 16 + 0xE0 :=
    UInt8.toNat_ofNat_of_lt (by simp only [UInt8.size]; omega)
  refine ⟨_, _, _, ?_, start_three (b := UInt8.ofNat (c.val.toNat / 4096 % 16 + 0xE0))
    (by omega) (by omega), .next _ _ _ _ (UInt8.ofNat (c.val.toNat / 64 % 64 + 0x80)) _ ?_ ?_
      (.last _ _ _ (UInt8.ofNat (c.val.toNat % 64 + 0x80)) (continuation_range _).1
        (Nat.le_of_lt_succ (continuation_range _).2) (ofNat_val ?_)),
    List.forall_mem_cons.mpr ⟨continuation_range _,
      List.forall_mem_singleton.mpr (continuation_range _)⟩⟩
  · rw [String.utf8EncodeChar, if_neg (by omega), if_neg (by omega), if_pos hhi]
  · -- no overlong form
    rw [continuation_toNat, hb]
    split <;> omega
  · -- no surrogate
    rw [continuation_toNat, hb]
    split <;> omega
  · rw [continuation_toNat, continuation_toNat, hb]
    omega

theorem begins_four (hlo : 0xffff < c.val.toNat) : Begins c := by
  have hvalid : c.val.toNat < 0xD800 ∨ 0xDFFF < c.val.toNat ∧ c.val.toNat < 0x110000 := c.valid
  have hb : (UInt8.ofNat (c.val.toNat / 262144 % 8 + 0xF0)).toNat =
      c.val.toNat / 262144 % 8 + 0xF0 :=
    UInt8.toNat_ofNat_of_lt (by simp only [UInt8.size]; omega)
  refine ⟨_, _, _, ?_, start_four (b := UInt8.ofNat (c.val.toNat / 262144 % 8 + 0xF0))
    (by omega) (by omega), .next _ _ _ _ (UInt8.ofNat (c.val.toNat / 4096 % 64 + 0x80)) _ ?_ ?_
      (.next _ _ _ _ (UInt8.ofNat (c.val.toNat / 64 % 64 + 0x80)) _ (continuation_range _).1
        (Nat.le_of_lt_succ (continuation_range _).2)
        (.last _ _ _ (UInt8.ofNat (c.val.toNat % 64 + 0x80)) (continuation_range _).1
          (Nat.le_of_lt_succ (continuation_range _).2) (ofNat_val ?_))),
    List.forall_mem_cons.mpr ⟨continuation_range _, List.forall_mem_cons.mpr
      ⟨continuation_range _, List.forall_mem_singleton.mpr (continuation_range _)⟩⟩⟩
  · rw [String.utf8EncodeChar, if_neg (by omega), if_neg (by omega), if_neg (by omega)]
  · -- no overlong form
    rw [continuation_toNat, hb]
    split <;> omega
  · -- nothing beyond the last character
    rw [continuation_toNat, hb]
    split <;> omega
  · rw [continuation_toNat, continuation_toNat, continuation_toNat, hb]
    omega

/-- The first byte of a character is the whole of it, or begins it. -/
theorem encode_cases (c : Char) :
    (∃ b, String.utf8EncodeChar c = [b] ∧ start b = .whole c) ∨ Begins c := by
  by_cases hone : c.val.toNat ≤ 0x7f
  · refine .inl ⟨UInt8.ofNat c.val.toNat, by rw [String.utf8EncodeChar, if_pos hone], ?_⟩
    have hb : (UInt8.ofNat c.val.toNat).toNat = c.val.toNat :=
      UInt8.toNat_ofNat_of_lt (by simp only [UInt8.size]; omega)
    simp only [start]
    rw [hb, if_pos (by omega), ofNat_val rfl]
  · by_cases htwo : c.val.toNat ≤ 0x7ff
    · exact .inr (begins_two (by omega) htwo)
    · by_cases hthree : c.val.toNat ≤ 0xffff
      · exact .inr (begins_three (by omega) hthree)
      · exact .inr (begins_four (by omega))

end Characters

section Decoding

theorem decode_encode_append (c : Char) (rest : List UInt8) :
    decode (String.utf8EncodeChar c ++ rest) = c :: decode rest := by
  rcases encode_cases c with ⟨b, hb, hstart⟩ | ⟨b, bs, p, hb, hstart, hbs, -⟩
  · rw [hb, List.singleton_append, decode, decodeFrom, hstart]
    rfl
  · rw [hb, List.cons_append, decode, decodeFrom, hstart]
    exact hbs.decodeFrom_append rest

/-- The first part of a cut character is replaced. -/
theorem decode_take (c : Char) {k : ℕ} (hpos : 0 < k)
    (hk : k < (String.utf8EncodeChar c).length) :
    decode ((String.utf8EncodeChar c).take k) = [replacement] := by
  obtain ⟨k, rfl⟩ := Nat.exists_eq_succ_of_ne_zero (Nat.ne_of_gt hpos)
  rcases encode_cases c with ⟨b, hb, -⟩ | ⟨b, bs, p, hb, hstart, hbs, -⟩
  · simp [hb] at hk
  · rw [hb] at hk ⊢
    rw [List.take_succ_cons, decode, decodeFrom, hstart]
    exact hbs.decodeFrom_take (by simpa using hk)

theorem decode_continuations {bs : List UInt8}
    (h : ∀ d ∈ bs, 0x80 ≤ d.toNat ∧ d.toNat < 0xC0) (rest : List UInt8) :
    decode (bs ++ rest) = List.replicate bs.length replacement ++ decode rest := by
  induction bs with
  | nil => rfl
  | cons d bs ih =>
    have hd := h d List.mem_cons_self
    rw [List.cons_append, decode, decodeFrom, start_continuation hd.1 hd.2]
    exact congrArg (replacement :: ·) (ih (fun e he => h e (List.mem_cons_of_mem _ he)))

/-- Each byte of the rest of a cut character is replaced. -/
theorem decode_drop (c : Char) {k : ℕ} (hpos : 0 < k) (rest : List UInt8) :
    decode ((String.utf8EncodeChar c).drop k ++ rest) =
      List.replicate ((String.utf8EncodeChar c).length - k) replacement ++ decode rest := by
  obtain ⟨k, rfl⟩ := Nat.exists_eq_succ_of_ne_zero (Nat.ne_of_gt hpos)
  rcases encode_cases c with ⟨b, hb, -⟩ | ⟨b, bs, p, hb, -, -, hall⟩
  · simp [hb]
  · have hall' : ∀ d ∈ bs.drop k, 0x80 ≤ d.toNat ∧ d.toNat < 0xC0 :=
      fun d hd => hall d (List.mem_of_mem_drop hd)
    rw [hb, List.drop_succ_cons, decode_continuations hall', List.length_drop,
      List.length_cons, Nat.succ_sub_succ]

end Decoding

section Cuts

variable {size : ℕ}

theorem chunks_nil (hsize : 0 < size) : chunks size [] = [] := by
  have hcount : (0 + size - 1) / size = 0 := Nat.div_eq_of_lt (by omega)
  rw [chunks, List.length_nil, hcount]
  rfl

theorem chunks_cons (hsize : 0 < size) {bytes : List UInt8} (h : bytes ≠ []) :
    chunks size bytes = bytes.take size :: chunks size (bytes.drop size) := by
  have hpos := List.length_pos_iff.mpr h
  have hcount : (bytes.length + size - 1) / size =
      ((bytes.drop size).length + size - 1) / size + 1 := by
    rw [List.length_drop]
    by_cases hlong : size ≤ bytes.length
    · rw [← Nat.add_div_right _ hsize]
      congr 1
      omega
    · have hfirst : (bytes.length + size - 1) / size = 1 :=
        Nat.div_eq_of_lt_le (by omega) (by omega)
      have hrest : (bytes.length - size + size - 1) / size = 0 := Nat.div_eq_of_lt (by omega)
      rw [hfirst, hrest]
  rw [chunks, hcount, List.range_succ_eq_map, List.map_cons, List.map_map, Nat.zero_mul,
    List.drop_zero]
  refine congrArg (bytes.take size :: ·) (List.map_congr_left (fun k _ => ?_))
  rw [Function.comp_apply, List.drop_drop, Nat.succ_mul, Nat.add_comm size]

def decodeCut (size room : ℕ) (bytes : List UInt8) : List Char :=
  decode (bytes.take room) ++ decodeChunks size (bytes.drop room)

theorem decodeChunks_eq (hsize : 0 < size) (bytes : List UInt8) :
    decodeChunks size bytes = decodeCut size size bytes := by
  by_cases h : bytes = []
  · rw [h, decodeCut, List.take_nil, List.drop_nil]
    rfl
  · rw [decodeChunks, chunks_cons hsize h, List.flatMap_cons]
    rfl

/-- Each character has room in the chunk where it begins; the first chunk has `room`
bytes. -/
def Uncut (size : ℕ) : ℕ → List Char → Prop
  | _, [] => True
  | room, c :: text =>
    (String.utf8EncodeChar c).length ≤ room ∧
      Uncut size (if (String.utf8EncodeChar c).length = room then size
        else room - (String.utf8EncodeChar c).length) text

theorem length_encodeChar (c : Char) :
    0 < (String.utf8EncodeChar c).length ∧ (String.utf8EncodeChar c).length ≤ 4 := by
  rw [String.length_utf8EncodeChar]
  exact ⟨c.utf8Size_pos, c.utf8Size_le_four⟩

/-- A character that has room is decoded. -/
theorem decodeCut_whole (hsize : 0 < size) {c : Char} {room : ℕ}
    (h : (String.utf8EncodeChar c).length ≤ room) (rest : List UInt8) :
    decodeCut size room (String.utf8EncodeChar c ++ rest) =
      c :: decodeCut size (if (String.utf8EncodeChar c).length = room then size
        else room - (String.utf8EncodeChar c).length) rest := by
  rw [decodeCut, List.take_append, List.drop_append, List.take_of_length_le h,
    List.drop_of_length_le h, decode_encode_append, List.nil_append]
  split
  · rename_i hfull
    rw [← decodeChunks_eq hsize, hfull, Nat.sub_self]
    rfl
  · rfl

/-- A character without room is replaced, once for its first part and once for each byte
of the rest. -/
theorem decodeCut_cut (hsize : 4 ≤ size) {c : Char} {room : ℕ} (hpos : 0 < room)
    (h : room < (String.utf8EncodeChar c).length) (rest : List UInt8) :
    decodeCut size room (String.utf8EncodeChar c ++ rest) =
      replacement :: (List.replicate ((String.utf8EncodeChar c).length - room) replacement ++
        decodeCut size (size - ((String.utf8EncodeChar c).length - room)) rest) := by
  have hlength := length_encodeChar c
  have hdrop : ((String.utf8EncodeChar c).drop room).length =
      (String.utf8EncodeChar c).length - room := List.length_drop
  have hall : ((String.utf8EncodeChar c).drop room).take size =
      (String.utf8EncodeChar c).drop room := List.take_of_length_le (by omega)
  have hnone : ((String.utf8EncodeChar c).drop room).drop size = [] :=
    List.drop_of_length_le (by omega)
  rw [decodeCut, List.take_append_of_le_length (by omega),
    List.drop_append_of_le_length (by omega), decode_take c hpos h, decodeChunks_eq (by omega),
    decodeCut, List.take_append, List.drop_append, hall, hnone, hdrop, decode_drop c hpos,
    List.nil_append, List.append_assoc]
  rfl

/-- A text comes back from its chunks just if no character is cut; otherwise what comes
back is longer. -/
theorem decodeCut_encode (hsize : 4 ≤ size) (text : List Char) (room : ℕ) (hpos : 0 < room)
    (hroom : room ≤ size) :
    text.length ≤ (decodeCut size room (encode text)).length ∧
      (decodeCut size room (encode text) = text ↔ Uncut size room text) := by
  induction text generalizing room with
  | nil =>
    rw [encode, List.flatMap_nil, decodeCut, List.take_nil, List.drop_nil, decodeChunks,
      chunks_nil (by omega)]
    exact ⟨Nat.le_refl _, iff_of_true rfl trivial⟩
  | cons c text ih =>
    have hlength := length_encodeChar c
    rw [encode, List.flatMap_cons, ← encode]
    by_cases h : (String.utf8EncodeChar c).length ≤ room
    · have hnext : 0 < (if (String.utf8EncodeChar c).length = room then size
            else room - (String.utf8EncodeChar c).length) ∧
          (if (String.utf8EncodeChar c).length = room then size
            else room - (String.utf8EncodeChar c).length) ≤ size := by
        split <;> omega
      have hrest := ih _ hnext.1 hnext.2
      rw [decodeCut_whole (by omega) h, List.length_cons, List.length_cons, Uncut,
        List.cons_inj_right, hrest.2]
      exact ⟨by omega, ⟨fun huncut => ⟨h, huncut⟩, fun huncut => huncut.2⟩⟩
    · have hrest := ih (size - ((String.utf8EncodeChar c).length - room))
        (by omega) (by omega)
      have hlong : (c :: text).length < (decodeCut size room
          (String.utf8EncodeChar c ++ encode text)).length := by
        rw [decodeCut_cut hsize hpos (by omega)]
        simp only [List.length_cons, List.length_append, List.length_replicate]
        omega
      refine ⟨by omega, iff_of_false (fun heq => ?_) (fun huncut => h huncut.1)⟩
      rw [heq] at hlong
      omega

theorem offset_next {room width : ℕ} (h : width ≤ room) (hroom : room ≤ size) {count : ℕ} :
    (size - (if width = room then size else room - width) + count) % size =
      (size - room + (width + count)) % size := by
  split
  · rename_i hfull
    have hsum : size - room + (width + count) = size + count := by omega
    rw [hsum, Nat.add_mod_left, Nat.sub_self, Nat.zero_add]
  · congr 1
    omega

/-- The characters have room just if none of them lies on both sides of a multiple of the
size, counted from where the first chunk would begin. -/
theorem uncut_iff (hsize : 4 ≤ size) (text : List Char) (room : ℕ) (hpos : 0 < room)
    (hroom : room ≤ size) :
    Uncut size room text ↔ ∀ before c after, text = before ++ c :: after →
      (size - room + (encode before).length) % size + (String.utf8EncodeChar c).length ≤
        size := by
  induction text generalizing room with
  | nil =>
    refine iff_of_true trivial (fun before c after h => ?_)
    simp at h
  | cons d text ih =>
    have hlength := length_encodeChar d
    have hfirst : (size - room) % size = size - room := Nat.mod_eq_of_lt (by omega)
    constructor
    · rintro ⟨hd, huncut⟩ before c after h
      cases before with
      | nil =>
        obtain ⟨rfl, -⟩ := List.cons.inj h
        rw [encode, List.flatMap_nil, List.length_nil, Nat.add_zero, hfirst]
        omega
      | cons e before =>
        obtain ⟨rfl, htext⟩ := List.cons.inj h
        have hrest :=
          (ih _ (by split <;> omega) (by split <;> omega)).mp huncut before c after htext
        rwa [encode, List.flatMap_cons, List.length_append, ← encode, ← offset_next hd hroom]
    · intro h
      have hd : (String.utf8EncodeChar d).length ≤ room := by
        have hhere := h [] d text rfl
        rw [encode, List.flatMap_nil, List.length_nil, Nat.add_zero, hfirst] at hhere
        omega
      refine ⟨hd, (ih _ (by split <;> omega) (by split <;> omega)).mpr ?_⟩
      rintro before c after rfl
      have hthere := h (d :: before) c after rfl
      rwa [encode, List.flatMap_cons, List.length_append, ← encode,
        ← offset_next hd hroom] at hthere

theorem decodeChunks_encode_iff (hsize : 4 ≤ size) (text : List Char) :
    decodeChunks size (encode text) = text ↔ Aligned size text := by
  have huncut := uncut_iff hsize text size (by omega) (Nat.le_refl _)
  rw [Nat.sub_self] at huncut
  simp only [Nat.zero_add] at huncut
  rw [decodeChunks_eq (by omega), (decodeCut_encode hsize text size (by omega) (Nat.le_refl _)).2,
    huncut, Aligned]

end Cuts

end LossyUtf8
