import Mathlib.Data.List.Basic
import Mathlib.Tactic.NormNum

/-!
Base64 with the standard alphabet and canonical padding. Decoding accepts exactly
whole groups of four symbols, padding only in the last group and zero trailing
bits; it reads back everything encoding writes.
-/
namespace Base64

abbrev Bytes := List UInt8

def pad : UInt8 := 61

def symbol (n : ℕ) : UInt8 :=
  if n < 26 then UInt8.ofNat (65 + n)
  else if n < 52 then UInt8.ofNat (71 + n)
  else if n < 62 then UInt8.ofNat (n - 4)
  else if n = 62 then 43
  else 47

def value (c : UInt8) : Option ℕ :=
  if 65 ≤ c ∧ c ≤ 90 then some (c.toNat - 65)
  else if 97 ≤ c ∧ c ≤ 122 then some (c.toNat - 71)
  else if 48 ≤ c ∧ c ≤ 57 then some (c.toNat + 4)
  else if c = 43 then some 62
  else if c = 47 then some 63
  else none

def encode : Bytes → Bytes
  | [] => []
  | [a] => [symbol (a.toNat / 4), symbol (a.toNat % 4 * 16), pad, pad]
  | [a, b] =>
    [symbol (a.toNat / 4), symbol (a.toNat % 4 * 16 + b.toNat / 16),
      symbol (b.toNat % 16 * 4), pad]
  | a :: b :: c :: rest =>
    symbol (a.toNat / 4) :: symbol (a.toNat % 4 * 16 + b.toNat / 16) ::
      symbol (b.toNat % 16 * 4 + c.toNat / 64) :: symbol (c.toNat % 64) :: encode rest

def decodeFull (w x y z : UInt8) : Option Bytes :=
  match value w, value x, value y, value z with
  | some w, some x, some y, some z =>
    some [UInt8.ofNat (w * 4 + x / 16), UInt8.ofNat (x % 16 * 16 + y / 4),
      UInt8.ofNat (y % 4 * 64 + z)]
  | _, _, _, _ => none

/-- The last group may be padded; the bits the padding cuts off must be zero. -/
def decodeLast (w x y z : UInt8) : Option Bytes :=
  if z = pad then
    if y = pad then
      match value w, value x with
      | some w, some x => if x % 16 = 0 then some [UInt8.ofNat (w * 4 + x / 16)] else none
      | _, _ => none
    else
      match value w, value x, value y with
      | some w, some x, some y =>
        if y % 4 = 0 then
          some [UInt8.ofNat (w * 4 + x / 16), UInt8.ofNat (x % 16 * 16 + y / 4)]
        else none
      | _, _, _ => none
  else decodeFull w x y z

def decode : Bytes → Option Bytes
  | [] => some []
  | w :: x :: y :: z :: rest =>
    if rest = [] then decodeLast w x y z
    else
      match decodeFull w x y z, decode rest with
      | some group, some bytes => some (group ++ bytes)
      | _, _ => none
  | _ => none

theorem value_symbol (n : ℕ) (h : n < 64) : value (symbol n) = some n := by
  have hall : ∀ n : Fin 64, value (symbol n.val) = some n.val := by decide
  exact hall ⟨n, h⟩

theorem symbol_ne_pad (n : ℕ) (h : n < 64) : symbol n ≠ pad := by
  intro heq
  have hv := value_symbol n h
  rw [heq] at hv
  simp [value, pad] at hv

def Plain (c : UInt8) : Prop := 43 ≤ c ∧ c < 128 ∧ c ≠ 44 ∧ c ≠ 92

theorem plain_symbol (n : ℕ) (h : n < 64) : Plain (symbol n) := by
  have hall : ∀ n : Fin 64, 43 ≤ symbol n.val ∧ symbol n.val < 128 ∧
      symbol n.val ≠ 44 ∧ symbol n.val ≠ 92 := by decide
  exact hall ⟨n, h⟩

theorem plain_pad : Plain pad := by
  unfold Plain pad
  decide

theorem plain_encode (bytes : Bytes) : ∀ c ∈ encode bytes, Plain c := by
  induction bytes using encode.induct with
  | case1 => simp [encode]
  | case2 a =>
    have ha := a.toNat_lt
    have h1 := plain_symbol (a.toNat / 4) (by omega)
    have h2 := plain_symbol (a.toNat % 4 * 16) (by omega)
    simp [encode, h1, h2, plain_pad]
  | case3 a b =>
    have ha := a.toNat_lt
    have hb := b.toNat_lt
    have h1 := plain_symbol (a.toNat / 4) (by omega)
    have h2 := plain_symbol (a.toNat % 4 * 16 + b.toNat / 16) (by omega)
    have h3 := plain_symbol (b.toNat % 16 * 4) (by omega)
    simp [encode, h1, h2, h3, plain_pad]
  | case4 a b c rest ih =>
    have ha := a.toNat_lt
    have hb := b.toNat_lt
    have hc := c.toNat_lt
    have h1 := plain_symbol (a.toNat / 4) (by omega)
    have h2 := plain_symbol (a.toNat % 4 * 16 + b.toNat / 16) (by omega)
    have h3 := plain_symbol (b.toNat % 16 * 4 + c.toNat / 64) (by omega)
    have h4 := plain_symbol (c.toNat % 64) (by omega)
    simp only [encode, List.mem_cons]
    rintro x (rfl | rfl | rfl | rfl | hx)
    · exact h1
    · exact h2
    · exact h3
    · exact h4
    · exact ih x hx

theorem encode_eq_nil (bytes : Bytes) : encode bytes = [] ↔ bytes = [] := by
  rcases bytes with _ | ⟨a, _ | ⟨b, _ | ⟨c, rest⟩⟩⟩ <;> simp [encode]

theorem decodeFull_encoded (a b c : UInt8) :
    decodeFull (symbol (a.toNat / 4)) (symbol (a.toNat % 4 * 16 + b.toNat / 16))
      (symbol (b.toNat % 16 * 4 + c.toNat / 64)) (symbol (c.toNat % 64)) = some [a, b, c] := by
  have ha := a.toNat_lt
  have hb := b.toNat_lt
  have hc := c.toNat_lt
  have h1 : a.toNat / 4 * 4 + (a.toNat % 4 * 16 + b.toNat / 16) / 16 = a.toNat := by omega
  have h2 : (a.toNat % 4 * 16 + b.toNat / 16) % 16 * 16 +
      (b.toNat % 16 * 4 + c.toNat / 64) / 4 = b.toNat := by omega
  have h3 : (b.toNat % 16 * 4 + c.toNat / 64) % 4 * 64 + c.toNat % 64 = c.toNat := by omega
  unfold decodeFull
  rw [value_symbol _ (by omega), value_symbol _ (by omega), value_symbol _ (by omega),
    value_symbol _ (by omega)]
  simp only [h1, h2, h3, UInt8.ofNat_toNat]

/-- Decoding reads back every byte string. -/
theorem decode_encode (bytes : Bytes) : decode (encode bytes) = some bytes := by
  induction bytes using encode.induct with
  | case1 => rfl
  | case2 a =>
    have ha := a.toNat_lt
    have h1 : a.toNat / 4 * 4 + a.toNat % 4 * 16 / 16 = a.toNat := by omega
    have h2 : a.toNat % 4 * 16 % 16 = 0 := by omega
    simp only [encode, decode, if_true, decodeLast]
    rw [value_symbol _ (by omega), value_symbol _ (by omega)]
    simp only [h2, if_true, h1, UInt8.ofNat_toNat]
  | case3 a b =>
    have ha := a.toNat_lt
    have hb := b.toNat_lt
    have h1 : a.toNat / 4 * 4 + (a.toNat % 4 * 16 + b.toNat / 16) / 16 = a.toNat := by omega
    have h2 : (a.toNat % 4 * 16 + b.toNat / 16) % 16 * 16 + b.toNat % 16 * 4 / 4 = b.toNat := by
      omega
    have h3 : b.toNat % 16 * 4 % 4 = 0 := by omega
    have hpad := symbol_ne_pad (b.toNat % 16 * 4) (by omega)
    simp only [encode, decode, if_true, decodeLast, hpad, if_false]
    rw [value_symbol _ (by omega), value_symbol _ (by omega), value_symbol _ (by omega)]
    simp only [h3, if_true, h1, h2, UInt8.ofNat_toNat]
  | case4 a b c rest ih =>
    have hc := c.toNat_lt
    have hpad := symbol_ne_pad (c.toNat % 64) (by omega)
    have hfull := decodeFull_encoded a b c
    by_cases hrest : rest = []
    · subst hrest
      simp only [encode, decode, if_true, decodeLast, hpad, if_false, hfull]
    · have hne : encode rest ≠ [] := fun h => hrest ((encode_eq_nil rest).mp h)
      simp only [encode, decode, hne, if_false, hfull, ih, List.cons_append, List.nil_append]

theorem length_encode (bytes : Bytes) : (encode bytes).length % 4 = 0 := by
  induction bytes using encode.induct with
  | case1 => rfl
  | case2 a => simp [encode]
  | case3 a b => simp [encode]
  | case4 a b c rest ih =>
    simp only [encode, List.length_cons]
    omega

/-- A group that is not the last one is full. -/
theorem decode_group (w x y z : UInt8) (rest bytes : Bytes) (hrest : rest ≠ [])
    (h : decode (w :: x :: y :: z :: rest) = some bytes) :
    ∃ group tail, decodeFull w x y z = some group ∧ decode rest = some tail ∧
      bytes = group ++ tail := by
  simp only [decode, hrest, if_false] at h
  split at h
  · rename_i group tail hgroup htail
    exact ⟨group, tail, hgroup, htail, (Option.some.inj h).symm⟩
  · contradiction

theorem length_of_decode (text bytes : Bytes) (h : decode text = some bytes) :
    text.length % 4 = 0 := by
  induction text using decode.induct generalizing bytes with
  | case1 => rfl
  | case2 w x y z => simp
  | case3 w x y z rest hrest group tail htail hgroup ih =>
    have hlen := ih tail htail
    simp only [List.length_cons]
    omega
  | case4 w x y z rest hrest hnone ih =>
    obtain ⟨group, tail, hgroup, htail, _⟩ := decode_group w x y z rest bytes hrest h
    exact (hnone group tail hgroup htail).elim
  | case5 text hnil hcons =>
    rw [decode] at h
    · contradiction
    · exact hnil
    · exact hcons

theorem decodeFull_pad (w x y : UInt8) : decodeFull w x y pad = none := by
  have hpad : value pad = none := by decide
  unfold decodeFull
  rw [hpad]
  split <;> simp_all

/-- Behind padding nothing else decodes. -/
theorem decode_padded (w x y : UInt8) (text bytes : Bytes)
    (h : decode (w :: x :: y :: pad :: text) = some bytes) : text = [] := by
  by_cases htext : text = []
  · exact htext
  · obtain ⟨group, tail, hgroup, _, _⟩ := decode_group w x y pad text bytes htext h
    rw [decodeFull_pad] at hgroup
    contradiction

/-- A string whose last group is padded decodes only with nothing behind it. -/
theorem decode_last {x y z : Bytes} {a b c : UInt8} (hx : encode x = [a, b, c, pad])
    (h : decode (encode x ++ encode y) = some z) : z = x ++ y := by
  have hnil : encode y = [] := by
    rw [hx] at h
    exact decode_padded _ _ _ _ _ h
  rw [hnil, List.append_nil, decode_encode] at h
  rw [(encode_eq_nil y).mp hnil, List.append_nil, Option.some.inj h]

/-- The front of an encoded string before another encoded string decodes only where
a group ends, to the front of the first string before the second. -/
theorem decode_splice (x y z : Bytes) (n : ℕ) (hpos : 0 < n) (hle : n ≤ (encode x).length)
    (h : decode ((encode x).take n ++ encode y) = some z) :
    ∃ m, 0 < m ∧ z = x.take m ++ y := by
  have hlen := length_of_decode _ _ h
  have hy := length_encode y
  rw [List.length_append, List.length_take, Nat.min_eq_left hle] at hlen
  induction x using encode.induct generalizing n z with
  | case1 =>
    simp only [encode, List.length_nil] at hle
    omega
  | case2 a =>
    have hlast : (encode [a]).length = 4 := rfl
    obtain rfl : n = 4 := by omega
    exact ⟨1, by omega, decode_last rfl h⟩
  | case3 a b =>
    have hlast : (encode [a, b]).length = 4 := rfl
    obtain rfl : n = 4 := by omega
    exact ⟨2, by omega, decode_last rfl h⟩
  | case4 a b c rest ih =>
    simp only [encode, List.length_cons] at hle
    obtain ⟨n, rfl⟩ : ∃ k, n = k + 4 := ⟨n - 4, by omega⟩
    simp only [encode, List.take_succ_cons, List.cons_append] at h
    by_cases hrest : (encode rest).take n ++ encode y = []
    · obtain ⟨_, hynil⟩ := List.append_eq_nil_iff.mp hrest
      have hpad := symbol_ne_pad (c.toNat % 64) (by omega)
      simp only [hrest, decode, if_true, decodeLast, hpad, if_false, decodeFull_encoded] at h
      refine ⟨3, by omega, ?_⟩
      rw [(encode_eq_nil y).mp hynil, ← Option.some.inj h]
      rfl
    · obtain ⟨group, tail, hgroup, htail, rfl⟩ := decode_group _ _ _ _ _ z hrest h
      rw [decodeFull_encoded] at hgroup
      rw [← Option.some.inj hgroup]
      by_cases hzero : n = 0
      · subst hzero
        rw [List.take_zero, List.nil_append, decode_encode] at htail
        refine ⟨3, by omega, ?_⟩
        rw [← Option.some.inj htail]
        rfl
      · obtain ⟨m, _, rfl⟩ := ih tail n (by omega) (by omega) htail (by omega)
        exact ⟨m + 3, by omega, rfl⟩

end Base64
