import October.Messages
import October.SelfDelimiting

/-!
The compact JSON text of a value tells where it ends. The first letter of a text tells
the kind of its value, a string ends at the first quote that is not escaped, and the
parts of arrays and objects are separated texts, so no value has the text of another
one, whatever follows.
-/

namespace October.JsonTexts

open SelfDelimiting

def isNumeric (c : Char) : Prop := c ∈ "0123456789+-.eE".toList

instance : DecidablePred isNumeric := fun c => inferInstanceAs (Decidable (c ∈ _))

/-- A value as a JSON library holds it: its numbers are written in letters of numbers. -/
inductive IsJson : Value → Prop
  | null : IsJson .null
  | bool (b : Bool) : IsJson (.bool b)
  | number (text : String) (hne : text ≠ "") (hnumeric : ∀ c ∈ text.toList, isNumeric c) :
    IsJson (.number text)
  | string (s : String) : IsJson (.string s)
  | array (items : List Value) (hitems : ∀ v ∈ items, IsJson v) : IsJson (.array items)
  | object (fields : List (String × Value)) (hfields : ∀ f ∈ fields, IsJson f.2) :
    IsJson (.object fields)

def text (v : Value) : List Char := v.display.toList

section Strings

def hexValue (c : Char) : ℕ := if c.toNat < 58 then c.toNat - 48 else c.toNat - 87

theorem hexValue_hexDigit {n : ℕ} (hn : n < 16) : hexValue (Value.hexDigit n) = n := by
  have hall : ∀ i : Fin 16, hexValue (Value.hexDigit i) = i := by decide
  exact hall ⟨n, hn⟩

def unescape : List Char → Option (Char × List Char)
  | '\\' :: 'u' :: _ :: _ :: a :: b :: rest =>
    some (Char.ofNat (16 * hexValue a + hexValue b), rest)
  | '\\' :: 'b' :: rest => some (Char.ofNat 8, rest)
  | '\\' :: 't' :: rest => some (Char.ofNat 9, rest)
  | '\\' :: 'n' :: rest => some (Char.ofNat 10, rest)
  | '\\' :: 'f' :: rest => some (Char.ofNat 12, rest)
  | '\\' :: 'r' :: rest => some (Char.ofNat 13, rest)
  | '\\' :: c :: rest => some (c, rest)
  | c :: rest => some (c, rest)
  | [] => none

theorem unescape_escapeChar (c : Char) (rest : List Char) :
    unescape (Value.escapeChar c ++ rest) = some (c, rest) := by
  have hchar : ∀ n, c.toNat = n → Char.ofNat n = c := by
    rintro _ rfl
    exact Char.ofNat_toNat c
  unfold Value.escapeChar
  split_ifs with hquote hslash h8 h9 h10 h12 h13 hcontrol
  · subst hquote
    rfl
  · subst hslash
    rfl
  · simpa [unescape] using hchar 8 h8
  · simpa [unescape] using hchar 9 h9
  · simpa [unescape] using hchar 10 h10
  · simpa [unescape] using hchar 12 h12
  · simpa [unescape] using hchar 13 h13
  · have hhigh : hexValue (Value.hexDigit (c.toNat / 16)) = c.toNat / 16 :=
      hexValue_hexDigit (by omega)
    have hlow : hexValue (Value.hexDigit (c.toNat % 16)) = c.toNat % 16 :=
      hexValue_hexDigit (by omega)
    have hsum : 16 * (c.toNat / 16) + c.toNat % 16 = c.toNat := Nat.div_add_mod _ _
    simp [unescape, hhigh, hlow, hsum]
  · simp [unescape, hslash]

/-- A letter's escaped form ends by itself. -/
theorem told_escapeChar (c : Char) : Told Value.escapeChar (fun _ => True) (fun _ => True) c :=
  told_of_read unescape unescape_escapeChar c

/-- An escaped letter never starts with a quote. -/
theorem escapeChar_starts (c : Char) : ∃ d rest, Value.escapeChar c = d :: rest ∧ d ≠ '"' := by
  unfold Value.escapeChar
  split_ifs with h
  all_goals first | exact ⟨_, _, rfl, by decide⟩ | exact ⟨_, _, rfl, h⟩

theorem toList_quote (s : String) :
    (Value.quote s).toList = '"' :: (s.toList.flatMap Value.escapeChar ++ ['"']) := by
  simp [Value.quote]

/-- A quoted string ends by itself. -/
theorem told_quote (s : String) :
    Told (fun s => (Value.quote s).toList) (fun _ => True) (fun _ => True) s := by
  intro s' _ rest rest' _ _ heq
  simp only [toList_quote, List.cons_append, List.append_assoc, List.nil_append,
    List.cons.injEq, true_and] at heq
  have hchars : Told (fun cs : List Char => cs.flatMap Value.escapeChar) (fun ys => ∀ y ∈ ys, True)
      (fun rest => True ∧ StopsAt (· ≠ '"') rest) s.toList :=
    told_flatMap (fun c _ => told_escapeChar c) (fun _ _ => trivial)
      (fun c _ => escapeChar_starts c) (fun _ _ _ => trivial)
  obtain ⟨hsame, hrest⟩ := hchars s'.toList (fun _ _ => trivial) _ _
    ⟨trivial, stopsAt_cons rest (by simp)⟩ ⟨trivial, stopsAt_cons rest' (by simp)⟩ heq
  exact ⟨String.toList_inj.mp hsame, (List.cons.inj hrest).2⟩

end Strings

section Values

theorem displayItems_eq (items : List Value) :
    Value.displayItems items = items.map Value.display := by
  induction items with
  | nil => rfl
  | cons v items ih => rw [Value.displayItems, ih, List.map_cons]

def fieldText (f : String × Value) : List Char := (Value.quote f.1).toList ++ ':' :: text f.2

theorem displayFields_eq (fields : List (String × Value)) :
    (Value.displayFields fields).map String.toList = fields.map fieldText := by
  induction fields with
  | nil => rfl
  | cons f fields ih =>
    obtain ⟨key, v⟩ := f
    rw [Value.displayFields, List.map_cons, List.map_cons, ih]
    simp [Value.displayField, fieldText, text]

theorem text_array (items : List Value) :
    text (.array items) = '[' :: (separated ',' text items ++ [']']) := by
  rw [← intercalate_eq_separated]
  have hmap : (items.map Value.display).map String.toList = items.map text := List.map_map
  simp [text, Value.display, displayItems_eq, hmap]

theorem text_object (fields : List (String × Value)) :
    text (.object fields) = '\x7b' :: (separated ',' fieldText fields ++ ['\x7d']) := by
  rw [← intercalate_eq_separated, ← displayFields_eq]
  simp [text, Value.display]

def kind : Value → ℕ
  | .null => 0
  | .bool true => 1
  | .bool false => 2
  | .number _ => 3
  | .string _ => 4
  | .array _ => 5
  | .object _ => 6

def kindOf (c : Char) : ℕ :=
  if c = 'n' then 0 else if c = 't' then 1 else if c = 'f' then 2
  else if isNumeric c then 3
  else if c = '"' then 4 else if c = '[' then 5 else if c = '\x7b' then 6 else 7

theorem kindOf_numeric {c : Char} (h : isNumeric c) : kindOf c = 3 := by
  have hall : "0123456789+-.eE".toList.all (fun d => decide (kindOf d = 3)) := by decide
  exact of_decide_eq_true (List.all_eq_true.mp hall c h)

theorem kind_lt (v : Value) : kind v < 7 := by
  unfold kind
  split <;> decide

/-- The first letter of a text tells the kind of its value. -/
theorem text_starts {v : Value} (h : IsJson v) :
    ∃ c rest, text v = c :: rest ∧ kindOf c = kind v := by
  cases h with
  | null => exact ⟨'n', _, rfl, rfl⟩
  | bool b =>
    cases b with
    | true => exact ⟨'t', _, rfl, rfl⟩
    | false => exact ⟨'f', _, rfl, rfl⟩
  | number t hne hnumeric =>
    have hdisplay : text (.number t) = t.toList := by simp [text, Value.display]
    cases ht : t.toList with
    | nil => exact absurd (by simpa using ht) hne
    | cons c rest =>
      exact ⟨c, rest, hdisplay.trans ht, kindOf_numeric (hnumeric c (by simp [ht]))⟩
  | string s => exact ⟨'"', s.toList.flatMap Value.escapeChar ++ ['"'],
      by simp only [text, Value.display, toList_quote], rfl⟩
  | array items hitems => exact ⟨'[', _, text_array items, rfl⟩
  | object fields hfields => exact ⟨'\x7b', _, text_object fields, rfl⟩

/-- Values with the same text in front are of the same kind. -/
theorem kind_eq {v w : Value} (hv : IsJson v) (hw : IsJson w) {rest rest' : List Char}
    (h : text v ++ rest = text w ++ rest') : kind v = kind w := by
  obtain ⟨c, tail, hv, hc⟩ := text_starts hv
  obtain ⟨d, tail', hw, hd⟩ := text_starts hw
  rw [hv, hw] at h
  rw [← hc, ← hd, (List.cons.inj h).1]

/-- A text never starts like the end of an array. -/
theorem text_starts_item {v : Value} (h : IsJson v) :
    ∃ c rest, text v = c :: rest ∧ c ≠ ']' := by
  obtain ⟨c, rest, hv, hc⟩ := text_starts h
  refine ⟨c, rest, hv, ?_⟩
  rintro rfl
  have hlt := kind_lt v
  rw [← hc] at hlt
  exact absurd hlt (by decide)

/-- A field ends where its value does. -/
theorem told_field {f : String × Value} (h : Told text IsJson (StopsAt isNumeric) f.2) :
    Told fieldText (fun f => True ∧ IsJson f.2) (StopsAt isNumeric) f :=
  @told_pair _ _ _ (fun key => (Value.quote key).toList) text _ IsJson _ _ ':' f
    (told_quote f.1) (fun _ => trivial) h

/-- The text of a value ends where no letter of a number follows. -/
theorem told_text {v : Value} (h : IsJson v) : Told text IsJson (StopsAt isNumeric) v := by
  induction h with
  | null =>
    intro w hw rest rest' _ _ heq
    have hkind := kind_eq .null hw heq
    cases hw with
    | null => exact ⟨rfl, List.append_cancel_left heq⟩
    | bool b => cases b <;> cases hkind
    | _ => cases hkind
  | bool b =>
    intro w hw rest rest' _ _ heq
    have hkind := kind_eq (.bool b) hw heq
    cases hw with
    | bool b' =>
      obtain rfl : b = b' := by cases b <;> cases b' <;> first | rfl | cases hkind
      exact ⟨rfl, List.append_cancel_left heq⟩
    | _ => cases b <;> cases hkind
  | number t hne hnumeric =>
    intro w hw rest rest' hrest hrest' heq
    have hkind := kind_eq (.number t hne hnumeric) hw heq
    cases hw with
    | number t' hne' hnumeric' =>
      simp only [text, Value.display] at heq
      obtain ⟨hsame, htail⟩ := told_word hnumeric t'.toList hnumeric' rest rest' hrest hrest' heq
      exact ⟨congrArg _ (String.toList_inj.mp hsame), htail⟩
    | bool b => cases b <;> cases hkind
    | _ => cases hkind
  | string s =>
    intro w hw rest rest' _ _ heq
    have hkind := kind_eq (.string s) hw heq
    cases hw with
    | string s' =>
      simp only [text, Value.display] at heq
      obtain ⟨rfl, htail⟩ := told_quote s s' trivial rest rest' trivial trivial heq
      exact ⟨rfl, htail⟩
    | bool b => cases b <;> cases hkind
    | _ => cases hkind
  | array items hitems ih =>
    intro w hw rest rest' _ _ heq
    have hkind := kind_eq (.array items hitems) hw heq
    cases hw with
    | array items' hitems' =>
      have hlist : Told (fun vs => '[' :: (separated ',' text vs ++ [']']))
          (fun vs => ∀ v ∈ vs, IsJson v) (fun _ => True) items :=
        told_enclosed ih hitems (fun v hv => text_starts_item hv)
          (fun rest => stopsAt_cons rest (by decide)) (fun rest => stopsAt_cons rest (by decide))
          (by decide) (by decide)
      rw [text_array, text_array] at heq
      obtain ⟨rfl, htail⟩ := hlist items' hitems' rest rest' trivial trivial heq
      exact ⟨rfl, htail⟩
    | bool b => cases b <;> cases hkind
    | _ => cases hkind
  | object fields hfields ih =>
    intro w hw rest rest' _ _ heq
    have hkind := kind_eq (.object fields hfields) hw heq
    cases hw with
    | object fields' hfields' =>
      have hlist : Told (fun fs => '\x7b' :: (separated ',' fieldText fs ++ ['\x7d']))
          (fun fs => ∀ f ∈ fs, True ∧ IsJson f.2) (fun _ => True) fields :=
        told_enclosed (fun f hf => told_field (ih f hf)) (fun f hf => ⟨trivial, hfields f hf⟩)
          (fun f _ => ⟨'"', _, by rw [fieldText, toList_quote]; rfl, rfl⟩)
          (fun rest => stopsAt_cons rest (by decide)) (fun rest => stopsAt_cons rest (by decide))
          (by decide) (by decide)
      rw [text_object, text_object] at heq
      obtain ⟨rfl, htail⟩ := hlist fields' (fun f hf => ⟨trivial, hfields' f hf⟩) rest rest'
        trivial trivial heq
      exact ⟨rfl, htail⟩
    | bool b => cases b <;> cases hkind
    | _ => cases hkind

end Values

end October.JsonTexts
