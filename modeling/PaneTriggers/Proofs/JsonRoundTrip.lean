import Mathlib.Data.List.TakeWhile
import Mathlib.Tactic.Common
import PaneTriggers.Json.Parser
import PaneTriggers.Json.Printer

/-!
# Printed values are read back

The text of a value stands for that value (`Json.parse?_text`), unless the value has a number that
is not whole or is too large, or is nested too deeply to be read (`Json.Fits`). Scanning and reading
are taken together: `readFrom` says where a reader comes by the characters of a text, and the lemmas
below say how far it comes by the text of a number, a string, an array and so on, whatever follows.
-/

namespace PaneTriggers.Json

/-- The value can be written and read back inside arrays and objects that may have `d` more around
them: whole numbers fit a 64-bit word, and there are no others. -/
inductive Fits : Nat → Json → Prop where
  | null {d} : Fits d null
  | bool {d} (b : Bool) : Fits d (bool b)
  | int {d} {n : Int} : -9223372036854775808 ≤ n → n ≤ 18446744073709551615 → Fits d (int n)
  | str {d} (s : String) : Fits d (str s)
  | arr {d} {items : List Json} : (∀ v ∈ items, Fits d v) → Fits (d + 1) (arr items)
  | obj {d} {fields : List (String × Json)} : (∀ f ∈ fields, Fits d f.2) → Fits (d + 1) (obj fields)

/-! ## Numbers -/

namespace Numeral

theorem value_map_digits (cs : List Char) :
    value (cs.map fun c => c.toNat - '0'.toNat) = Nat.ofDigitChars 10 cs 0 := by
  unfold value
  rw [Nat.ofDigitChars_eq_foldl, List.foldl_map]
  simp only [Nat.mul_comm]

/-- The digits of a number do not start with zero, unless it is zero. -/
theorem toDigits_head (n : Nat) : ∃ d ds, Nat.toDigits 10 n = Nat.digitChar d :: ds ∧ d < 10 ∧
    (d = 0 → ds = []) ∧ (d = 0 → n = 0) := by
  induction n using Nat.strongRecOn with
  | _ n ih =>
    by_cases hn : n < 10
    · exact ⟨n, [], Nat.toDigits_of_lt_base hn, hn, fun _ => rfl, id⟩
    · obtain ⟨d, ds, hds, hd, -, hzero⟩ := ih (n / 10) (by omega)
      refine ⟨d, ds ++ [Nat.digitChar (n % 10)], ?_, hd, fun h => ?_, fun h => ?_⟩
      · rw [Nat.toDigits_of_base_le (by decide) (by omega), hds]
        rfl
      · have := hzero h
        omega
      · have := hzero h
        omega

theorem whole?_toDigits (n : Nat) :
    ∃ ds, whole? (Nat.toDigits 10 n) = some (ds, []) ∧ value ds = n := by
  have hdigit : ∀ c ∈ Nat.toDigits 10 n, c.isDigit = true := fun c hc =>
    Nat.isDigit_of_mem_toDigits (by decide) (by decide) hc
  have hread : digits (Nat.toDigits 10 n) =
      ((Nat.toDigits 10 n).map fun c => c.toNat - '0'.toNat, []) := by
    unfold digits
    rw [List.takeWhile_eq_self_iff.2 hdigit, List.dropWhile_eq_nil_iff.2 hdigit]
  refine ⟨(Nat.toDigits 10 n).map fun c => c.toNat - '0'.toNat, ?_, ?_⟩
  · obtain ⟨d, ds, hds, hd, hzero, -⟩ := toDigits_head n
    unfold whole?
    rw [hread, hds, List.map_cons]
    have hvalue : (Nat.digitChar d).toNat - '0'.toNat = d := Nat.toNat_digitChar_sub_48_of_lt_ten hd
    rw [hvalue]
    rcases d with _ | d
    · rw [hzero rfl]
      rfl
    · rfl
  · rw [value_map_digits, Nat.ofDigitChars_ten_toDigits]

/-- A numeral that is a whole number. -/
theorem ofChars?_of_whole {cs ds : List Char} {whole : List Nat} {negative : Bool}
    (hcs : cs = if negative then '-' :: ds else ds) (hds : ds.head? ≠ some '-')
    (hwhole : whole? ds = some (whole, [])) : ofChars? cs = some ⟨negative, whole, [], none⟩ := by
  rw [hcs]
  unfold ofChars?
  cases negative with
  | true =>
    simp only [if_true]
    rw [hwhole]
    rfl
  | false =>
    rcases ds with _ | ⟨c, ds⟩
    · cases hwhole
    · have hc : c ≠ '-' := fun h => hds (by rw [h]; rfl)
      simp only [Bool.false_eq_true, if_false]
      split
      · next h =>
        injection h with h
        exact absurd h hc
      · dsimp only
        rw [hwhole]
        rfl

end Numeral

open Numeral in
theorem number?_digits {n : Int} (hl : -9223372036854775808 ≤ n) (hg : n ≤ 18446744073709551615) :
    number? (digits n) = some (int n) := by
  have hhead : ∀ m, (Nat.toDigits 10 m).head? ≠ some '-' := fun m h => by
    obtain ⟨d, ds, hds, -⟩ := toDigits_head m
    rw [hds] at h
    exact Nat.digitChar_ne '-' (by decide) (Option.some.inj h)
  cases n with
  | ofNat m =>
    obtain ⟨whole, hwhole, hvalue⟩ := whole?_toDigits m
    have hm : (m : Int) ≤ 18446744073709551615 := hg
    have hm : m ≤ 18446744073709551615 := by omega
    have hchars : ofChars? (Json.digits (.ofNat m)) = some ⟨false, whole, [], none⟩ :=
      ofChars?_of_whole rfl (hhead m) hwhole
    unfold number?
    rw [hchars]
    simp [Numeral.int?, hvalue, hm]
  | negSucc m =>
    obtain ⟨whole, hwhole, hvalue⟩ := whole?_toDigits (m + 1)
    have hm : m + 1 ≤ 9223372036854775808 := by omega
    have hchars : ofChars? (Json.digits (.negSucc m)) = some ⟨true, whole, [], none⟩ :=
      ofChars?_of_whole rfl (hhead (m + 1)) hwhole
    unfold number?
    rw [hchars]
    simp [Numeral.int?, hvalue, hm, Int.negSucc_eq]

/-! ## Reading the characters of a text -/

/-- Where a reader at `r` comes by the characters of a text, the scanner being in the mode `m`. -/
def readFrom (m : Mode) (r : Reading) (cs : List Char) : Option Reading :=
  (m.tokens? cs).bind fun ts => ts.foldlM Reading.step? r

theorem parse?_eq (s : String) :
    parse? s = (readFrom .between ⟨[], .value⟩ s.toList).bind Reading.result? := by
  unfold parse? readFrom
  cases Mode.between.tokens? s.toList <;> rfl

section Reading

variable {m next : Mode} {r : Reading} {c : Char} {cs rest : List Char} {ts : List Token}

theorem readFrom_cons (h : m.step? c = some (ts, next)) :
    readFrom m r (c :: cs) = (ts.foldlM Reading.step? r).bind fun r' => readFrom next r' cs := by
  have htokens : m.tokens? (c :: cs) = (next.tokens? cs).map (ts ++ ·) := by
    rw [Mode.tokens?, h]
    show (next.tokens? cs).bind (fun us => some (ts ++ us)) = _
    cases next.tokens? cs <;> rfl
  unfold readFrom
  rw [htokens]
  cases next.tokens? cs with
  | none => simp
  | some us => simp [List.foldlM_append]

theorem readFrom_inside (h : m.step? c = some ([], next)) :
    readFrom m r (c :: cs) = readFrom next r cs :=
  readFrom_cons h

/-- A punctuation mark that the reader takes. -/
theorem readFrom_mark {t : Token} {r' : Reading} (hc : Mode.start c = ([t], .between))
    (hr : r.step? t = some r') : readFrom .between r (c :: cs) = readFrom .between r' cs := by
  rw [readFrom_cons (m := .between) (congrArg some hc)]
  simp [hr]

/-! ### Words -/

/-- The text is at its end or goes on with a character that ends words. -/
def Ends : List Char → Prop
  | [] => True
  | c :: _ => Mode.endsWord c = true

theorem readFrom_word {t : Token} (hend : Ends rest) : ∀ {cs read : List Char},
    (∀ c ∈ cs, Mode.endsWord c = false) → Token.ofWord? (read.reverse ++ cs) = some t →
    readFrom (.word read) r (cs ++ rest) = (r.step? t).bind fun r' => readFrom .between r' rest
  | [], read, _, ht => by
    rw [List.append_nil] at ht
    cases rest with
    | nil => simp [readFrom, Mode.tokens?, Mode.finish?, ht]
    | cons c rest =>
      have hc : Mode.endsWord c = true := hend
      have hstep : (Mode.word read).step? c = some (t :: (Mode.start c).1, (Mode.start c).2) := by
        simp [Mode.step?, hc, ht]
      have hstart : ∀ r', readFrom .between r' (c :: rest) =
          ((Mode.start c).1.foldlM Reading.step? r').bind fun r'' =>
            readFrom (Mode.start c).2 r'' rest := fun r' => readFrom_cons rfl
      rw [List.nil_append, readFrom_cons hstep]
      simp only [hstart, List.foldlM_cons, Option.bind_eq_bind, Option.bind_assoc]
  | c :: cs, read, hcs, ht => by
    have hc : Mode.endsWord c = false := hcs c List.mem_cons_self
    have hstep : (Mode.word read).step? c = some ([], .word (c :: read)) := by simp [Mode.step?, hc]
    rw [List.cons_append, readFrom_inside hstep]
    exact readFrom_word hend (fun c hc => hcs c (List.mem_cons_of_mem _ hc)) (by simpa using ht)

theorem readFrom_of_word {t : Token} (hend : Ends rest) (hcs : ∀ c ∈ cs, Mode.endsWord c = false)
    (ht : Token.ofWord? cs = some t) : readFrom .between r (cs ++ rest) =
      (r.step? t).bind fun r' => readFrom .between r' rest := by
  cases cs with
  | nil => simp [Token.ofWord?, number?, Numeral.ofChars?, Numeral.whole?, Numeral.digits] at ht
  | cons c cs =>
    have hc : Mode.endsWord c = false := hcs c List.mem_cons_self
    have hstart : Mode.start c = ([], .word [c]) := by
      simp only [Mode.endsWord, Bool.or_eq_false_iff, Option.isSome_eq_false_iff,
        Option.isNone_iff_eq_none] at hc
      simp only [beq_eq_false_iff_ne, ne_eq] at hc
      simp [Mode.start, hc]
    rw [List.cons_append, readFrom_inside (m := .between) (congrArg some hstart)]
    exact readFrom_word hend (fun c hc => hcs c (List.mem_cons_of_mem _ hc)) ht

theorem endsWord_iff : Mode.endsWord c = true ↔
    c ∈ [' ', '\t', '\n', '\r', '"', '[', ']', '\x7b', '\x7d', ',', ':'] := by
  unfold Mode.endsWord Token.isBlank Token.mark?
  split_ifs <;> simp_all [or_assoc]

theorem not_endsWord_of_isDigit (h : c.isDigit = true) : Mode.endsWord c = false := by
  by_contra hc
  rw [Bool.not_eq_false, endsWord_iff] at hc
  have hmarks : ∀ d ∈ [' ', '\t', '\n', '\r', '"', '[', ']', '\x7b', '\x7d', ',', ':'],
      d.isDigit = false := by simp
  rw [hmarks c hc] at h
  cases h

theorem ofWord?_of_number {v : Json} (h : number? cs = some v) :
    Token.ofWord? cs = some (.scalar v) := by
  unfold Token.ofWord?
  split_ifs with hnull htrue hfalse
  · rw [hnull] at h
    cases h
  · rw [htrue] at h
    cases h
  · rw [hfalse] at h
    cases h
  · rw [h]
    rfl

theorem readFrom_int {n : Int} (hl : -9223372036854775808 ≤ n) (hg : n ≤ 18446744073709551615)
    (hend : Ends rest) : readFrom .between r (digits n ++ rest) =
      (r.step? (.scalar (.int n))).bind fun r' => readFrom .between r' rest := by
  have hdigit : ∀ m, ∀ c ∈ Nat.toDigits 10 m, Mode.endsWord c = false := fun m c hc =>
    not_endsWord_of_isDigit (Nat.isDigit_of_mem_toDigits (by decide) (by decide) hc)
  refine readFrom_of_word hend (fun c hc => ?_) (ofWord?_of_number (number?_digits hl hg))
  cases n with
  | ofNat m => exact hdigit m c hc
  | negSucc m =>
    rcases List.mem_cons.1 hc with rfl | hc
    · decide
    · exact hdigit (m + 1) c hc

/-! ### Strings -/

theorem hex?_digitChar {d : Nat} (hd : d < 16) : Token.hex? (Nat.digitChar d) = some d := by
  revert d
  decide

/-- Inside a string an escaped character is read as the character. -/
theorem readFrom_escape (c : Char) (read : List Char) :
    readFrom (.string read) r (escape c ++ cs) = readFrom (.string (c :: read)) r cs := by
  have short : ∀ {d}, Token.unescape? d = some c → d ≠ 'u' →
      readFrom (.string read) r ('\\' :: d :: cs) = readFrom (.string (c :: read)) r cs := by
    intro d hd hu
    rw [readFrom_inside (m := .string read) rfl]
    exact readFrom_inside (by simp [Mode.step?, hu, hd])
  unfold escape
  split_ifs with h₁ h₂ h₃ h₄ h₅ h₆ h₇ h₈
  · exact short (by rw [h₁]; rfl) (by decide)
  · exact short (by rw [h₂]; rfl) (by decide)
  · exact short (by rw [h₃]; rfl) (by decide)
  · exact short (by rw [h₄]; rfl) (by decide)
  · exact short (by rw [h₅]; rfl) (by decide)
  · exact short (by rw [h₆]; rfl) (by decide)
  · exact short (by rw [h₇]; rfl) (by decide)
  · -- The unit is written as two zeros and two digits.
    have hhigh := hex?_digitChar (d := c.toNat / 16) (by omega)
    have hlow := hex?_digitChar (d := c.toNat % 16) (by omega)
    have hvalue : c.toNat / 16 * 16 + c.toNat % 16 = c.toNat := by omega
    have hunit : Mode.ofUnit? read none c.toNat = some (.string (c :: read)) := by
      unfold Mode.ofUnit?
      simp only [Char.ofNat_toNat]
      rw [if_neg (by omega), if_neg (by omega)]
    have hzeros : ∀ cs, readFrom (.string read) r ('\\' :: 'u' :: '0' :: '0' :: cs) =
        readFrom (.unit read none 2 0) r cs := fun cs =>
      ((readFrom_inside rfl).trans (readFrom_inside rfl)).trans
        ((readFrom_inside rfl).trans (readFrom_inside rfl))
    have hthird : readFrom (.unit read none 2 0) r
          (Nat.digitChar (c.toNat / 16) :: Nat.digitChar (c.toNat % 16) :: cs) =
        readFrom (.unit read none 3 (c.toNat / 16)) r (Nat.digitChar (c.toNat % 16) :: cs) :=
      readFrom_inside (by simp [Mode.step?, hhigh])
    refine ((hzeros _).trans hthird).trans (readFrom_inside ?_)
    simp [Mode.step?, hlow, hvalue, hunit]
  · exact readFrom_inside (by simp [Mode.step?, h₁, h₂, h₈])

theorem readFrom_escaped : ∀ (cs read : List Char),
    readFrom (.string read) r (cs.flatMap escape ++ '"' :: rest) =
      (r.step? (.scalar (.str (String.ofList (read.reverse ++ cs))))).bind fun r' =>
        readFrom .between r' rest
  | [], read => by
    rw [List.append_nil]
    have hstep : (Mode.string read).step? '"' =
        some ([.scalar (.str (String.ofList read.reverse))], .between) := rfl
    rw [List.flatMap_nil, List.nil_append, readFrom_cons hstep]
    simp
  | c :: cs, read => by
    rw [List.flatMap_cons, List.append_assoc, readFrom_escape, readFrom_escaped cs]
    simp

theorem readFrom_quote (s : String) : readFrom .between r (quote s ++ rest) =
    (r.step? (.scalar (.str s))).bind fun r' => readFrom .between r' rest := by
  unfold quote
  rw [List.cons_append, readFrom_inside (m := .between) rfl, List.append_assoc]
  exact (readFrom_escaped s.toList []).trans (by simp)

/-! ### Values -/

/-- The focus of a reader that takes a value next. -/
def Focus.Awaits (f : Focus) : Prop := f = .value ∨ f = .firstItem

variable {opened : List Open} {f : Focus} {d : Nat}

/-- Only an array that was just opened may end where a value is awaited. -/
theorem step?_of_awaits (hf : f.Awaits) {t : Token} (ht : t ≠ .endArray) :
    Reading.step? ⟨opened, f⟩ t = Reading.start? opened t := by
  rcases hf with rfl | rfl <;> unfold Reading.step? <;> split <;> simp_all

theorem step?_scalar (hf : f.Awaits) (v : Json) :
    Reading.step? ⟨opened, f⟩ (.scalar v) = some ⟨opened, .complete v⟩ :=
  step?_of_awaits hf nofun

/-- A word that stands for a value completes it. -/
theorem readsWord {v : Json} (hcs : v.render = cs) (hword : cs.any Mode.endsWord = false)
    (hv : Token.ofWord? cs = some (.scalar v)) (hf : f.Awaits) (hend : Ends rest) :
    readFrom .between ⟨opened, f⟩ (v.render ++ rest) =
      readFrom .between ⟨opened, .complete v⟩ rest := by
  have hword : ∀ c ∈ cs, Mode.endsWord c = false := fun c hc =>
    Bool.eq_false_iff.2 (List.any_eq_false.1 hword c hc)
  rw [hcs, readFrom_of_word hend hword hv, step?_scalar hf]
  rfl

/-- A reader that takes a value next comes by the text of `v` to where `v` is complete. -/
def ReadsAs (d : Nat) (v : Json) : Prop :=
  ∀ (opened : List Open) (f : Focus) (rest : List Char), f.Awaits →
    opened.length + d ≤ Reading.maxDepth → Ends rest →
    readFrom .between ⟨opened, f⟩ (render v ++ rest) =
      readFrom .between ⟨opened, .complete v⟩ rest

theorem readFrom_items (hd : opened.length + 1 + d ≤ Reading.maxDepth) :
    ∀ {vs : List Json} {v : Json} {before : List Json} {f : Focus}, f.Awaits →
      (∀ u ∈ v :: vs, ReadsAs d u) →
      readFrom .between ⟨.array before :: opened, f⟩ (renderItems (v :: vs) ++ ']' :: rest) =
        readFrom .between ⟨opened, .complete (.arr (before.reverse ++ v :: vs))⟩ rest
  | [], v, before, f, hf, h => by
    have hv := h v List.mem_cons_self (.array before :: opened) f (']' :: rest) hf hd rfl
    rw [renderItems, hv, readFrom_mark (t := .endArray) rfl rfl]
    simp
  | u :: vs, v, before, f, hf, h => by
    have hv := h v List.mem_cons_self (.array before :: opened) f
      (',' :: (renderItems (u :: vs) ++ ']' :: rest)) hf hd rfl
    rw [renderItems, List.append_assoc, List.cons_append, hv, readFrom_mark (t := .comma) rfl rfl,
      readFrom_items hd (.inl rfl) fun w hw => h w (List.mem_cons_of_mem _ hw)]
    · simp
    · simp

theorem readFrom_fields (hd : opened.length + 1 + d ≤ Reading.maxDepth) :
    ∀ {fs : List (String × Json)} {k : String} {v : Json} {before : List (String × Json)}
      {f : Focus}, f = .key ∨ f = .firstKey → (∀ g ∈ (k, v) :: fs, ReadsAs d g.2) →
      readFrom .between ⟨.object before :: opened, f⟩
          (renderFields ((k, v) :: fs) ++ '\x7d' :: rest) =
        readFrom .between ⟨opened, .complete (.obj (before.reverse ++ (k, v) :: fs))⟩ rest
  | fs, k, v, before, f, hf, h => by
    have hkey : ∀ cs, readFrom .between ⟨.object before :: opened, f⟩ (quote k ++ ':' :: cs) =
        readFrom .between ⟨.field before k :: opened, .value⟩ cs := fun cs => by
      have hstep : Reading.step? ⟨.object before :: opened, f⟩ (.scalar (.str k)) =
          some ⟨.object before :: opened, .colon k⟩ := by
        rcases hf with rfl | rfl
        · rfl
        · cases before <;> rfl
      rw [readFrom_quote, hstep]
      exact readFrom_mark (t := .colon) rfl rfl
    have hv := h (k, v) List.mem_cons_self (.field before k :: opened) .value
    rcases fs with _ | ⟨⟨k', v'⟩, fs⟩
    · have hv := hv ('\x7d' :: rest) (.inl rfl) hd rfl
      rw [renderFields, List.append_assoc, List.cons_append, hkey, hv,
        readFrom_mark (t := .endObject) rfl rfl]
      simp
    · have hv := hv (',' :: (renderFields ((k', v') :: fs) ++ '\x7d' :: rest)) (.inl rfl) hd rfl
      rw [renderFields, List.append_assoc, List.cons_append, hkey, List.append_assoc,
        List.cons_append, hv, readFrom_mark (t := .comma) rfl rfl,
        readFrom_fields hd (.inl rfl) fun g hg => h g (List.mem_cons_of_mem _ hg)]
      · simp
      · simp

theorem Fits.readsAs {v : Json} (h : Fits d v) : ReadsAs d v := by
  induction h with
  | null =>
    intro opened f rest hf _ hend
    exact readsWord rfl (by decide) rfl hf hend
  | bool b =>
    intro opened f rest hf _ hend
    cases b with
    | true => exact readsWord rfl (by decide) rfl hf hend
    | false => exact readsWord rfl (by decide) rfl hf hend
  | int hl hg =>
    intro opened f rest hf _ hend
    rw [render, readFrom_int hl hg hend, step?_scalar hf]
    rfl
  | str s =>
    intro opened f rest hf _ _
    rw [render, readFrom_quote, step?_scalar hf]
    rfl
  | @arr d items _ ih =>
    intro opened f rest hf hd _
    have hstep : Reading.step? ⟨opened, f⟩ .beginArray = some ⟨.array [] :: opened, .firstItem⟩ :=
      (step?_of_awaits (t := .beginArray) hf nofun).trans (if_pos (by omega))
    have hopen : ∀ cs, readFrom .between ⟨opened, f⟩ ('[' :: cs) =
        readFrom .between ⟨.array [] :: opened, .firstItem⟩ cs := fun cs => readFrom_mark rfl hstep
    rw [render, List.cons_append, List.append_assoc, hopen]
    rcases items with _ | ⟨v, vs⟩
    · exact readFrom_mark (t := .endArray) rfl rfl
    · exact readFrom_items (by omega) (.inr rfl) ih
  | @obj d fields _ ih =>
    intro opened f rest hf hd _
    have hstep : Reading.step? ⟨opened, f⟩ .beginObject = some ⟨.object [] :: opened, .firstKey⟩ :=
      (step?_of_awaits (t := .beginObject) hf nofun).trans (if_pos (by omega))
    have hopen : ∀ cs, readFrom .between ⟨opened, f⟩ ('\x7b' :: cs) =
        readFrom .between ⟨.object [] :: opened, .firstKey⟩ cs := fun cs => readFrom_mark rfl hstep
    rw [render, List.cons_append, List.append_assoc, hopen]
    rcases fields with _ | ⟨⟨k, v⟩, fs⟩
    · exact readFrom_mark (t := .endObject) rfl rfl
    · exact readFrom_fields (by omega) (.inr rfl) ih

end Reading

theorem parse?_text {v : Json} (h : Fits Reading.maxDepth v) : parse? v.text = some v := by
  have hread := h.readsAs [] .value [] (.inl rfl) (by simp) trivial
  rw [parse?_eq, text, String.toList_ofList, ← List.append_nil (render v), hread]
  rfl

end PaneTriggers.Json
