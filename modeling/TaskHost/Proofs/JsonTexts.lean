/-
# What is written as JSON is read back

The compact text of a value is read as that value again, whatever text follows
it, unless the value ends with a number that the following text goes on with.
Values are compared as they are kept: whole numbers that fit a word, and fields
in the order of their keys. It follows that texts of values can be taken apart
again when they are put one after the other.

Key definitions: `Json.Canonical`, `Json.Closes`, `Json.ReadsBack`.
Key theorems: `Json.Canonical.readsBack`, `Json.Canonical.read_compact`,
`Json.Canonical.render_append_inj`.
-/
import TaskHost.Json.Reader

namespace TaskHost

/-! ### Hexadecimal digits -/

theorem Hex.value?_digit {n : Nat} (h : n < 16) : Hex.value? (Hex.digit n) = some n := by
  have all : ∀ n < 16, Hex.value? (Hex.digit n) = some n := by decide
  exact all n h

namespace Json

theorem hexQuad?_fixed {n : Nat} (h : n < 0x10000) :
    Hex.nat? (Hex.fixed 4 n) = some n := by
  have digit (k : Nat) : Hex.value? (Hex.digit (k % 16)) = some (k % 16) :=
    Hex.value?_digit (Nat.mod_lt _ (by decide))
  simp only [Hex.nat?, Hex.fixed, List.nil_append, List.cons_append, List.foldl_cons, List.foldl_nil,
    digit, Option.bind_eq_bind, Option.bind_some, Option.pure_def, Option.some.injEq]
  omega

/-! ### Strings -/

/-- A string with one more character in front. -/
def scannedCons (c : Char) (p : List Char × List Char) : List Char × List Char := (c :: p.1, p.2)

theorem scanString_letter {c e : Char} (hu : c ≠ 'u') (he : escapedChar? c = some e) (s : List Char) :
    scanString ('\\' :: c :: s) = (scanString s).map (scannedCons e) := by
  rw [scanString, if_neg hu, he]
  · cases scanString s <;> rfl
  · exact fun _ _ _ _ _ h => absurd h hu

theorem scanString_quad {n : Nat} (h : n < 0xD800) (s : List Char) :
    scanString ('\\' :: 'u' :: (Hex.fixed 4 n ++ s)) =
      (scanString s).map (scannedCons (Char.ofNat n)) := by
  have quad := hexQuad?_fixed (n := n) (by omega)
  have trailing : isTrailing n = false := by simp [isTrailing]; omega
  have leading : isLeading n = false := by simp [isLeading]; omega
  simp only [Hex.fixed, List.nil_append, List.cons_append] at quad ⊢
  rw [scanString]
  simp only [hexQuad?, quad, trailing, leading]
  cases scanString s <;> rfl

theorem scanString_plain {c : Char} (hq : c ≠ '"') (hb : c ≠ '\\') (hc : ¬ c.toNat < 32) (s : List Char) :
    scanString (c :: s) = (scanString s).map (scannedCons c) := by
  rw [scanString, if_neg hc]
  · cases scanString s <;> rfl
  · exact hq
  all_goals simp [hb]

theorem scanString_escapeChar (c : Char) (s : List Char) :
    scanString (escapeChar c ++ s) = (scanString s).map (scannedCons c) := by
  unfold escapeChar
  repeat' split
  all_goals first
    | subst c; exact scanString_letter (by decide) (by decide) s
    | skip
  · rename_i control
    rw [List.cons_append, List.cons_append, scanString_quad (by omega), Char.ofNat_toNat]
  · exact scanString_plain ‹_› ‹_› ‹_› s

theorem scanString_flatMap (cs s : List Char) :
    scanString (cs.flatMap escapeChar ++ '"' :: s) = .ok (cs, s) := by
  induction cs with
  | nil => simp [scanString]
  | cons c cs ih =>
    rw [List.flatMap_cons, List.append_assoc, scanString_escapeChar, ih]
    rfl

/-! ### Numbers -/

/-- A number cannot go on with the text. -/
def Closes (s : List Char) : Prop :=
  ∀ c ∈ s.head?, c.isDigit = false ∧ c ≠ '.' ∧ c ≠ 'e' ∧ c ≠ 'E'

theorem scanDigits_append {ds s : List Char} (digits : ∀ c ∈ ds, c.isDigit = true) (closes : Closes s) :
    scanDigits (ds ++ s) = (ds.map decimalDigit, s) := by
  have none_taken : s.takeWhile Char.isDigit = [] ∧ s.dropWhile Char.isDigit = s := by
    cases s with
    | nil => exact ⟨rfl, rfl⟩
    | cons c s => simp [(closes c rfl).1]
  rw [scanDigits, List.takeWhile_append_of_pos digits, List.dropWhile_append_of_pos digits,
    none_taken.1, none_taken.2, List.append_nil]

theorem scanFraction?_of_closes (atEnd : Cause) {s : List Char} (closes : Closes s) :
    scanFraction? atEnd s = .ok (none, s) := by
  unfold scanFraction?
  split
  · exact absurd rfl (closes '.' rfl).2.1
  · rfl

theorem scanExponent?_of_closes (atEnd : Cause) {s : List Char} (closes : Closes s) :
    scanExponent? atEnd s = .ok (none, s) := by
  unfold scanExponent?
  split
  · rename_i c rest
    simp [(closes c rfl).2.2.1, (closes c rfl).2.2.2]
  · rfl

/-- Zero is the only number that is written with a zero in front. -/
theorem exists_toDigits_of_pos {n : Nat} (h : 0 < n) : ∃ c ds, Nat.toDigits 10 n = c :: ds ∧ c ≠ '0' := by
  induction n using Nat.strongRecOn with
  | ind n ih =>
    by_cases small : n < 10
    · refine ⟨n.digitChar, [], Nat.toDigits_of_lt_base small, ?_⟩
      have all : ∀ n < 10, 0 < n → n.digitChar ≠ '0' := by decide
      exact all n small h
    · obtain ⟨c, ds, hds, hc⟩ := ih (n / 10) (by omega) (by omega)
      refine ⟨c, ds ++ [(n % 10).digitChar], ?_, hc⟩
      rw [Nat.toDigits_of_base_le (by decide) (by omega), hds, List.cons_append]

theorem scanWhole_toDigits (atEnd : Cause) (n : Nat) {s : List Char} (closes : Closes s) :
    scanWhole atEnd (Nat.toDigits 10 n ++ s) = .ok ((Nat.toDigits 10 n).map decimalDigit, s) := by
  have digits : ∀ c ∈ Nat.toDigits 10 n, c.isDigit = true :=
    fun c hc => Nat.isDigit_of_mem_toDigits (by decide) (by decide) hc
  have scanned := scanDigits_append digits closes
  rcases Nat.eq_zero_or_pos n with rfl | pos
  · cases s with
    | nil => rfl
    | cons c s =>
      have := (closes c rfl).1
      simp [scanWhole, Nat.toDigits_of_lt_base, this, decimalDigit, Nat.digitChar]
  · obtain ⟨c, ds, hds, hc⟩ := exists_toDigits_of_pos pos
    rw [hds] at digits scanned ⊢
    rw [List.cons_append] at scanned ⊢
    rw [scanWhole.eq_def]
    split
    · simp_all
    · simp_all
    · simp_all

theorem le_foldl_digits (ds : List Nat) (n : Nat) : n ≤ ds.foldl (fun n d => 10 * n + d) n := by
  induction ds generalizing n with
  | nil => exact Nat.le_refl n
  | cons d ds ih => exact Nat.le_trans (by omega) (ih (10 * n + d))

theorem absorb_of_le {ds : List Nat} {n : Nat} (h : ds.foldl (fun n d => 10 * n + d) n ≤ maxWord) :
    absorb n ds = (ds.foldl (fun n d => 10 * n + d) n, 0) := by
  induction ds generalizing n with
  | nil => rfl
  | cons d ds ih =>
    have fits : 10 * n + d ≤ maxWord := Nat.le_trans (le_foldl_digits ds _) h
    rw [absorb, if_pos fits, ih h, List.foldl_cons]

theorem foldl_toDigits (n : Nat) :
    ((Nat.toDigits 10 n).map decimalDigit).foldl (fun n d => 10 * n + d) 0 = n := by
  rw [List.foldl_map]
  exact Nat.ofDigitChars_eq_foldl.symm.trans Nat.ofDigitChars_ten_toDigits

theorem absorb_toDigits {n : Nat} (h : n ≤ maxWord) :
    absorb 0 ((Nat.toDigits 10 n).map decimalDigit) = (n, 0) := by
  rw [absorb_of_le (by rwa [foldl_toDigits]), foldl_toDigits]

theorem scanNumeral_toDigits (atEnd : Cause) (negative : Bool) (n : Nat) {s : List Char} (closes : Closes s) :
    scanNumeral atEnd negative (Nat.toDigits 10 n ++ s) =
      .ok (⟨negative, (Nat.toDigits 10 n).map decimalDigit, none, none⟩, s) := by
  unfold scanNumeral
  rw [scanWhole_toDigits atEnd n closes]
  simp only [bind, Except.bind, scanFraction?_of_closes atEnd closes, scanExponent?_of_closes atEnd closes]
  rfl

/-- The whole numbers that are read as such: those of a signed or an unsigned
word. -/
def FitsWord (n : Int) : Prop := -0x8000000000000000 ≤ n ∧ n ≤ maxWord

theorem scanNumber_renderWhole {n : Int} (fits : FitsWord n) {s : List Char} (closes : Closes s) :
    scanNumber (renderWhole n ++ s) = .ok (.whole n, s) := by
  cases n with
  | ofNat n =>
    have small : n ≤ maxWord := Int.ofNat_le.mp fits.2
    have unsigned : ∀ rest, Nat.toDigits 10 n ++ s ≠ '-' :: rest := by
      intro rest h
      cases hd : Nat.toDigits 10 n with
      | nil => exact Nat.toDigits_ne_nil hd
      | cons c ds =>
        have digit := Nat.isDigit_of_mem_toDigits (b := 10) (n := n) (c := c) (by decide) (by decide)
          (by simp [hd])
        rw [hd] at h
        obtain rfl : c = '-' := by simpa using (List.cons.inj h).1
        simp at digit
    rw [renderWhole, scanNumber.eq_2 _ unsigned, scanNumeral_toDigits _ _ _ closes]
    simp [bind, Except.bind, Numeral.number, absorb_toDigits small, pure, Except.pure]
  | negSucc n =>
    have small : n + 1 ≤ 0x8000000000000000 := by have := fits.1; omega
    have word : n + 1 ≤ maxWord := Nat.le_trans small (by decide)
    simp only [scanNumber, renderWhole, List.cons_append]
    rw [scanNumeral_toDigits _ _ _ closes]
    have nonzero : ¬ (n + 1 = 0 ∨ 0x8000000000000000 < n + 1) := by omega
    simp only [bind, Except.bind, Numeral.number, absorb_toDigits word, nonzero, pure, Except.pure]
    rfl

/-! ### Values -/

/-- A value as it is printed and read back: its numbers are whole and fit a
word, and the fields of its objects stand in the order of their keys, with one
field for each key. -/
inductive Canonical : Json → Prop where
  | null : Canonical .null
  | bool (b : Bool) : Canonical (.bool b)
  | whole {n : Int} (fits : FitsWord n) : Canonical (.number (.whole n))
  | string (s : String) : Canonical (.string s)
  | array {items : List Json} (each : ∀ j ∈ items, Canonical j) : Canonical (.array items)
  | object {fields : List (String × Json)} (sorted : fields.Pairwise fun a b => a.1 < b.1)
      (each : ∀ f ∈ fields, Canonical f.2) : Canonical (.object fields)

/-- A character that a value can begin with. -/
def Opens (c : Char) : Prop :=
  c ≠ ' ' ∧ c ≠ '\n' ∧ c ≠ '\t' ∧ c ≠ '\r' ∧ c ≠ ']'

instance : DecidablePred Opens := fun _ => inferInstanceAs (Decidable (_ ∧ _))

theorem Opens.skipBlanks {c : Char} (h : Opens c) (s : List Char) : skipBlanks (c :: s) = c :: s := by
  simp [Json.skipBlanks, h.1, h.2.1, h.2.2.1, h.2.2.2.1]

theorem nextItem_first {c : Char} (h : Opens c) (s : List Char) :
    nextItem true (c :: s) = .ok (some (c :: s)) := by
  simp [nextItem, h.skipBlanks, h.2.2.2.2]

theorem nextItem_comma {c : Char} (h : Opens c) (s : List Char) :
    nextItem false (',' :: c :: s) = .ok (some (c :: s)) := by
  have comma : Opens ',' := by decide
  simp [nextItem, comma.skipBlanks, h.skipBlanks, h.2.2.2.2]

theorem beginsNumber_renderWhole (n : Int) : ∃ c cs, renderWhole n = c :: cs ∧ beginsNumber c = true := by
  cases n with
  | ofNat n =>
    cases hd : Nat.toDigits 10 n with
    | nil => exact absurd hd Nat.toDigits_ne_nil
    | cons c ds =>
      have digit : c.isDigit = true :=
        Nat.isDigit_of_mem_toDigits (b := 10) (n := n) (by decide) (by decide) (by simp [hd])
      exact ⟨c, ds, hd, by simp [beginsNumber, digit]⟩
  | negSucc n => exact ⟨'-', _, rfl, by decide⟩

theorem opens_of_beginsNumber {c : Char} (h : beginsNumber c = true) : Opens c := by
  refine ⟨?_, ?_, ?_, ?_, ?_⟩ <;> rintro rfl <;> exact absurd h (by decide)

theorem Canonical.opens {j : Json} (h : j.Canonical) : ∃ c cs, j.render = c :: cs ∧ Opens c := by
  cases h with
  | null => exact ⟨'n', _, rfl, by decide⟩
  | bool b => cases b <;> exact ⟨_, _, rfl, by decide⟩
  | @whole n fits =>
    obtain ⟨c, cs, hn, hc⟩ := beginsNumber_renderWhole n
    exact ⟨c, cs, hn, opens_of_beginsNumber hc⟩
  | string s => exact ⟨'"', _, rfl, by decide⟩
  | @array items _ => cases items <;> exact ⟨'[', _, rfl, by decide⟩
  | @object fields _ _ => cases fields <;> exact ⟨'\x7b', _, rfl, by decide⟩

theorem scanFound_renderWhole {n : Int} (fits : FitsWord n) {s : List Char} (closes : Closes s) :
    scanFound (renderWhole n ++ s) = .ok (.number (.whole n), s) := by
  have scanned := scanNumber_renderWhole fits closes
  obtain ⟨c, cs, hn, hc⟩ := beginsNumber_renderWhole n
  rw [hn, List.cons_append] at scanned ⊢
  rw [scanFound, if_pos hc, scanned]
  · rfl
  all_goals intro h; subst h
  all_goals exact absurd hc (by decide)

theorem scanFound_quote (cs s : List Char) :
    scanFound (quote cs ++ s) = .ok (.string (String.ofList cs), s) := by
  have scanned := scanString_flatMap cs s
  simp only [quote, List.cons_append, List.append_assoc, List.nil_append]
  rw [scanFound, scanned]
  rfl

/-- The value that was found; of an array and an object only the bracket was. -/
def Found.value : Found → Json
  | .null => .null
  | .bool b => .bool b
  | .number n => .number n
  | .string t => .string t
  | .sequence => .array []
  | .map => .object []

theorem readValue_scalar {c : Char} (h : Opens c) (hb : c ≠ '[') (ho : c ≠ '\x7b') {s after : List Char}
    {found : Found} (scanned : scanFound (c :: s) = .ok (found, after)) (fuel : Nat) :
    readValue (fuel + 1) (c :: s) = .ok (found.value, after) := by
  rw [readValue, h.skipBlanks]
  split
  · simp_all
  · simp_all
  · simp_all
  · rw [scanned]
    cases found <;> rfl

/-- Whatever follows, the value is read from the front of its text. -/
def ReadsBack (j : Json) : Prop :=
  ∀ fuel s, j.render.length ≤ fuel → Closes s → readValue fuel (j.render ++ s) = .ok (j, s)

/-! #### Arrays -/

theorem closes_renderItems (items : List Json) (s : List Char) : Closes (renderItems items ++ s) := by
  cases items <;> simp [renderItems, Closes]

theorem length_renderItems_pos (items : List Json) : 0 < (renderItems items).length := by
  cases items <;> simp [renderItems]

theorem readArray_cons {fuel : Nat} {first : Bool} {text s after : List Char} {j : Json}
    {items : List Json} (next : nextItem first text = .ok (some (j.render ++ s)))
    (item : readValue fuel (j.render ++ s) = .ok (j, s))
    (rest : readArray fuel false s = .ok (items, after)) :
    readArray (fuel + 1) first text = .ok (j :: items, after) := by
  rw [readArray, next]
  simp only [bind, Except.bind, item, rest]
  rfl

theorem readArray_nil (fuel : Nat) (first : Bool) (s : List Char) :
    readArray (fuel + 1) first (']' :: s) = .ok ([], s) := by
  simp [readArray, nextItem, endList, skipBlanks, bind, Except.bind, pure, Except.pure]

theorem readArray_renderItems {items : List Json} (canonical : ∀ j ∈ items, j.Canonical)
    (each : ∀ j ∈ items, j.ReadsBack) (fuel : Nat) (s : List Char)
    (enough : (renderItems items).length ≤ fuel) :
    readArray fuel false (renderItems items ++ s) = .ok (items, s) := by
  induction items generalizing fuel with
  | nil =>
    obtain ⟨fuel, rfl⟩ := Nat.exists_eq_add_one.mpr enough
    exact readArray_nil _ _ _
  | cons j items ih =>
    simp only [renderItems, List.length_cons, List.length_append] at enough
    obtain ⟨fuel, rfl⟩ := Nat.exists_eq_add_one.mpr (Nat.lt_of_lt_of_le (Nat.succ_pos _) enough)
    obtain ⟨c, cs, hj, hc⟩ := (canonical j (by simp)).opens
    have positive := length_renderItems_pos items
    refine readArray_cons (s := renderItems items ++ s) ?_ ?_ ?_
    · simpa [renderItems, hj] using nextItem_comma hc (cs ++ (renderItems items ++ s))
    · exact each j (by simp) _ _ (by omega) (closes_renderItems items s)
    · exact ih (fun j hj => canonical j (by simp [hj])) (fun j hj => each j (by simp [hj])) _ (by omega)

theorem ReadsBack.array {items : List Json} (canonical : ∀ j ∈ items, j.Canonical)
    (each : ∀ j ∈ items, j.ReadsBack) : (Json.array items).ReadsBack := by
  intro fuel s enough _
  have bracket : Opens '[' := by decide
  cases items with
  | nil =>
    obtain ⟨fuel, rfl⟩ : ∃ k, fuel = k + 2 := ⟨fuel - 2, by simp [render] at enough; omega⟩
    simp only [render, List.cons_append, List.nil_append, readValue, bracket.skipBlanks, readArray_nil]
    rfl
  | cons j items =>
    simp only [render, List.length_cons, List.length_append] at enough
    have positive := length_renderItems_pos items
    obtain ⟨fuel, rfl⟩ : ∃ k, fuel = k + 2 := ⟨fuel - 2, by omega⟩
    obtain ⟨c, cs, hj, hc⟩ := (canonical j (by simp)).opens
    have nonempty := congrArg List.length hj
    rw [List.length_cons] at nonempty
    have inside : readArray (fuel + 1) true (j.render ++ (renderItems items ++ s)) = .ok (j :: items, s) := by
      refine readArray_cons (s := renderItems items ++ s) ?_ ?_ ?_
      · simpa [hj] using nextItem_first hc (cs ++ (renderItems items ++ s))
      · exact each j (by simp) _ _ (by omega) (closes_renderItems items s)
      · exact readArray_renderItems (fun j hj => canonical j (by simp [hj]))
          (fun j hj => each j (by simp [hj])) _ _ (by omega)
    simp only [render, List.cons_append, List.append_assoc, readValue, bracket.skipBlanks, inside]
    rfl

/-! #### Objects -/

theorem insertField_last {key : String} (value : Json) {fields : List (String × Json)}
    (after : ∀ f ∈ fields, f.1 < key) : insertField key value fields = fields ++ [(key, value)] := by
  induction fields with
  | nil => rfl
  | cons f fields ih =>
    have before : f.1 < key := after f (by simp)
    have other : key ≠ f.1 := fun h => String.lt_irrefl key (h ▸ before)
    have behind : ¬ key < f.1 := fun h => String.lt_irrefl key (String.lt_trans h before)
    rw [insertField, if_neg behind, if_neg other, ih fun g hg => after g (by simp [hg]), List.cons_append]

theorem ofFields_sorted {fields : List (String × Json)} (sorted : fields.Pairwise fun a b => a.1 < b.1) :
    ofFields fields = .object fields := by
  have fold : ∀ kept : List (String × Json), (∀ f ∈ kept, ∀ g ∈ fields, f.1 < g.1) →
      fields.foldl (fun acc f => insertField f.1 f.2 acc) kept = kept ++ fields := by
    induction fields with
    | nil => simp
    | cons f fields ih =>
      intro kept below
      obtain ⟨first, sorted⟩ := List.pairwise_cons.mp sorted
      rw [List.foldl_cons, insertField_last _ fun g hg => below g hg f (by simp), ih sorted]
      · simp
      · intro g hg a ha
        rcases List.mem_append.mp hg with hg | hg
        · exact below g hg a (by simp [ha])
        · rw [List.mem_singleton.mp hg]
          exact first a ha
  rw [ofFields, fold [] (by simp), List.nil_append]

theorem closes_renderFields (fields : List (String × Json)) (s : List Char) :
    Closes (renderFields fields ++ s) := by
  obtain _ | ⟨⟨k, v⟩, fields⟩ := fields <;> simp [renderFields, Closes]

theorem length_renderFields_pos (fields : List (String × Json)) : 0 < (renderFields fields).length := by
  obtain _ | ⟨⟨k, v⟩, fields⟩ := fields <;> simp [renderFields]

theorem passColon_colon (s : List Char) : passColon (':' :: s) = .ok s := by
  simp [passColon, skipBlanks]

theorem readObject_cons {fuel : Nat} {first : Bool} {text s after : List Char} {k : String} {j : Json}
    {fields : List (String × Json)}
    (next : nextKey first text = .ok (some (k.toList.flatMap escapeChar ++ '"' :: ':' :: (j.render ++ s))))
    (value : readValue fuel (j.render ++ s) = .ok (j, s))
    (rest : readObject fuel false s = .ok (fields, after)) :
    readObject (fuel + 1) first text = .ok ((k, j) :: fields, after) := by
  rw [readObject, next]
  simp only [bind, Except.bind, scanString_flatMap, passColon_colon, value, rest, pure, Except.pure,
    String.ofList_toList]

theorem readObject_nil (fuel : Nat) (first : Bool) (s : List Char) :
    readObject (fuel + 1) first ('\x7d' :: s) = .ok ([], s) := by
  simp [readObject, nextKey, skipBlanks, bind, Except.bind, pure, Except.pure]

theorem nextKey_first (cs s : List Char) :
    nextKey true (quote cs ++ s) = .ok (some (cs.flatMap escapeChar ++ '"' :: s)) := by
  simp [nextKey, quote, skipBlanks]

theorem nextKey_comma (cs s : List Char) :
    nextKey false (',' :: (quote cs ++ s)) = .ok (some (cs.flatMap escapeChar ++ '"' :: s)) := by
  simp [nextKey, quote, skipBlanks]

theorem readObject_renderFields {fields : List (String × Json)} (each : ∀ f ∈ fields, f.2.ReadsBack)
    (fuel : Nat) (s : List Char) (enough : (renderFields fields).length ≤ fuel) :
    readObject fuel false (renderFields fields ++ s) = .ok (fields, s) := by
  induction fields generalizing fuel with
  | nil =>
    obtain ⟨fuel, rfl⟩ := Nat.exists_eq_add_one.mpr enough
    exact readObject_nil _ _ _
  | cons f fields ih =>
    obtain ⟨k, j⟩ := f
    simp only [renderFields, List.length_cons, List.length_append] at enough
    obtain ⟨fuel, rfl⟩ := Nat.exists_eq_add_one.mpr (Nat.lt_of_lt_of_le (Nat.succ_pos _) enough)
    have positive := length_renderFields_pos fields
    have value : j.ReadsBack := each (k, j) (by simp)
    refine readObject_cons (s := renderFields fields ++ s) ?_ ?_ ?_
    · simpa [renderFields] using nextKey_comma k.toList (':' :: (j.render ++ (renderFields fields ++ s)))
    · exact value _ _ (by omega) (closes_renderFields fields s)
    · exact ih (fun f hf => each f (by simp [hf])) _ (by omega)

theorem ReadsBack.object {fields : List (String × Json)} (sorted : fields.Pairwise fun a b => a.1 < b.1)
    (each : ∀ f ∈ fields, f.2.ReadsBack) : (Json.object fields).ReadsBack := by
  intro fuel s enough _
  have brace : Opens '\x7b' := by decide
  obtain _ | ⟨⟨k, j⟩, fields⟩ := fields
  · obtain ⟨fuel, rfl⟩ : ∃ k, fuel = k + 2 := ⟨fuel - 2, by simp [render] at enough; omega⟩
    simp only [render, List.cons_append, List.nil_append, readValue, brace.skipBlanks, readObject_nil]
    rfl
  · simp only [render, List.length_cons, List.length_append] at enough
    have positive := length_renderFields_pos fields
    have value : j.ReadsBack := each (k, j) (by simp)
    obtain ⟨fuel, rfl⟩ : ∃ k, fuel = k + 2 := ⟨fuel - 2, by omega⟩
    have inside : readObject (fuel + 1) true
        (quote k.toList ++ ':' :: (j.render ++ (renderFields fields ++ s))) = .ok ((k, j) :: fields, s) := by
      refine readObject_cons (s := renderFields fields ++ s) (nextKey_first _ _) ?_ ?_
      · exact value _ _ (by omega) (closes_renderFields fields s)
      · exact readObject_renderFields (fun f hf => each f (by simp [hf])) _ _ (by omega)
    simp only [render, List.cons_append, List.append_assoc, readValue, brace.skipBlanks, inside]
    simp only [bind, Except.bind, ofFields_sorted sorted]
    rfl

/-! #### Any value -/

/-- The text of a value, whatever follows it, is read as that value. -/
theorem Canonical.readsBack {j : Json} (h : j.Canonical) : j.ReadsBack := by
  induction h with
  | null =>
    intro fuel s enough _
    obtain ⟨fuel, rfl⟩ := Nat.exists_eq_add_one.mpr (Nat.lt_of_lt_of_le (by simp [render]) enough)
    have scanned : scanFound (Json.null.render ++ s) = .ok (.null, s) := rfl
    exact readValue_scalar (c := 'n') (by decide) (by decide) (by decide) scanned fuel
  | bool b =>
    intro fuel s enough _
    obtain ⟨fuel, rfl⟩ := Nat.exists_eq_add_one.mpr
      (Nat.lt_of_lt_of_le (by cases b <;> simp [render]) enough)
    have scanned : scanFound ((Json.bool b).render ++ s) = .ok (.bool b, s) := by cases b <;> rfl
    cases b with
    | true => exact readValue_scalar (c := 't') (by decide) (by decide) (by decide) scanned fuel
    | false => exact readValue_scalar (c := 'f') (by decide) (by decide) (by decide) scanned fuel
  | @whole n fits =>
    intro fuel s enough closes
    obtain ⟨c, cs, hn, hc⟩ := beginsNumber_renderWhole n
    have scanned := scanFound_renderWhole fits closes
    simp only [render, Number.render, hn, List.cons_append, List.length_cons] at enough scanned ⊢
    obtain ⟨fuel, rfl⟩ : ∃ k, fuel = k + 1 := ⟨fuel - 1, by omega⟩
    refine readValue_scalar (opens_of_beginsNumber hc) ?_ ?_ scanned fuel
    all_goals rintro rfl; exact absurd hc (by decide)
  | string t =>
    intro fuel s enough _
    obtain ⟨fuel, rfl⟩ : ∃ k, fuel = k + 1 := ⟨fuel - 1, by simp [render, quote] at enough; omega⟩
    have scanned := scanFound_quote t.toList s
    rw [String.ofList_toList] at scanned
    exact readValue_scalar (c := '"') (by decide) (by decide) (by decide) scanned fuel
  | array each ih => exact ReadsBack.array each ih
  | object sorted _ ih => exact ReadsBack.object sorted ih

/-- A value is read back from its compact text. -/
theorem Canonical.read_compact {j : Json} (h : j.Canonical) : read j.compact = .ok j := by
  have value := h.readsBack (j.render.length + 1) [] (by omega) (by simp [Closes])
  rw [List.append_nil] at value
  simp only [Json.read, decode, compact, String.toList_ofList, String.length_ofList, value, bind, Except.bind]
  rfl

/-- No text of a value begins another one, unless a number goes on. -/
theorem Canonical.render_append_inj {i j : Json} (hi : i.Canonical) (hj : j.Canonical) {s t : List Char}
    (hs : Closes s) (ht : Closes t) (h : i.render ++ s = j.render ++ t) : i = j ∧ s = t := by
  have left := hi.readsBack (i.render.length + j.render.length) s (by omega) hs
  have right := hj.readsBack (i.render.length + j.render.length) t (by omega) ht
  rw [h, right] at left
  simp only [Except.ok.injEq, Prod.mk.injEq] at left
  exact ⟨left.1.symm, left.2.symm⟩

end Json
end TaskHost
