import Mathlib.Tactic.Common
import PaneTriggers.Runner.Config

/-!
# What a runner's document says

A field of a document has the values that its type can write there (`RunnerConfig.WritesBool`,
`WritesInt`, `WritesLevel`, `WritesRotation`), and each reader takes exactly those. A document is
well formed if its keys are known and every field that is there has its type
(`RunnerConfig.WellFormed`). It is read if it is well formed and its lateness is not negative, and
then gives each setting its written value or its default (`RunnerConfig.ofJson_exact`).
-/

namespace PaneTriggers

namespace LogLevel

/-- The name of a level in configuration. -/
def configName : LogLevel → String
  | trace => "trace"
  | debug => "debug"
  | info => "info"
  | warn => "warn"
  | error => "error"

theorem ofConfigName?_eq_some_iff {s : String} {l : LogLevel} :
    ofConfigName? s = some l ↔ s = l.configName := by
  refine ⟨fun h => ?_, ?_⟩
  · unfold ofConfigName? at h
    split_ifs at h with hs hs hs hs hs <;> cases h <;> exact hs
  · rintro rfl
    rcases l <;> rfl

end LogLevel

/-- A list repeats `a` and nothing else if `a` is all that is left without the repetitions. -/
theorem eraseDups_eq_singleton_iff {α : Type} [DecidableEq α] {l : List α} {a : α} :
    l.eraseDups = [a] ↔ a ∈ l ∧ ∀ b ∈ l, b = a := by
  refine ⟨fun h => ?_, fun ⟨ha, hall⟩ => ?_⟩
  · have hmem : ∀ b, b ∈ l ↔ b = a := fun b => by
      rw [← List.mem_eraseDups, h, List.mem_singleton]
    exact ⟨(hmem a).2 rfl, fun b => (hmem b).1⟩
  · rcases l with _ | ⟨b, l⟩
    · simp at ha
    · obtain ⟨rfl, hl⟩ := List.forall_mem_cons.1 hall
      have hnone : (l.filter fun c => !c == b) = [] :=
        List.filter_eq_nil_iff.2 fun c hc => by simp [hl c hc]
      rw [List.eraseDups_cons, hnone, List.eraseDups_nil]

namespace Json

theorem mem_of_lookup {key : String} {v : Json} :
    ∀ {fields : List (String × Json)}, lookup key fields = some v → (key, v) ∈ fields
  | [], h => by simp [lookup] at h
  | (k, u) :: fields, h => by
    rw [lookup, Option.or_eq_some_iff] at h
    rcases h with h | ⟨-, h⟩
    · exact List.mem_cons_of_mem _ (mem_of_lookup h)
    · split_ifs at h with hk
      cases h
      rw [hk]
      exact List.mem_cons_self

theorem bool?_eq_some_iff {v : Json} {b : Bool} : v.bool? = some b ↔ v = .bool b := by
  rcases v <;> simp [bool?]

theorem int?_eq_some_iff {v : Json} {n : Int} : v.int? = some n ↔ v = .int n := by
  rcases v <;> simp [int?]

end Json

namespace RunnerConfig

/-! ## Values -/

/-- A truth value. -/
def WritesBool (b : Bool) (v : Json) : Prop := v = .bool b

/-- A whole number of 64 bits, one of them for the sign. -/
def WritesInt (n : Int) (v : Json) : Prop :=
  v = .int n ∧ -9223372036854775808 ≤ n ∧ n ≤ 9223372036854775807

/-- A natural number of 64 bits. -/
def WritesWord (n : Nat) (v : Json) : Prop := v = .int n ∧ n ≤ 18446744073709551615

/-- A level by its name, or as an object with the name for its only key and null for the value. -/
inductive WritesLevel (l : LogLevel) : Json → Prop where
  | name : WritesLevel l (.str l.configName)
  | key {fields : List (String × Json)} (only : ∀ f ∈ fields, f.1 = l.configName)
    (null : Json.lookup l.configName fields = some .null) : WritesLevel l (.obj fields)

/-- A rotation policy by name or by place. -/
inductive WritesRotation (p : RotationPolicy) : Json → Prop where
  | fields {fields : List (String × Json)} {bytes files : Json}
    (bytes_eq : Json.lookup "max_bytes" fields = some bytes)
    (files_eq : Json.lookup "max_files" fields = some files)
    (hbytes : WritesWord p.maxBytes bytes) (hfiles : WritesWord p.maxFiles files) :
    WritesRotation p (.obj fields)
  | items {bytes files : Json} (hbytes : WritesWord p.maxBytes bytes)
    (hfiles : WritesWord p.maxFiles files) : WritesRotation p (.arr [bytes, files])

/-- The reader takes what is written so, and nothing else. -/
def Reads {α : Type} (read? : Json → Option α) (Writes : α → Json → Prop) : Prop :=
  ∀ a v, read? v = some a ↔ Writes a v

theorem reads_bool : Reads Json.bool? WritesBool := fun _ _ => Json.bool?_eq_some_iff

theorem reads_lateness : Reads latenessOfJson? WritesInt := fun n v => by
  simp only [latenessOfJson?, WritesInt, Option.bind_eq_some_iff, Json.int?_eq_some_iff]
  refine ⟨?_, fun ⟨hv, hn⟩ => ⟨n, hv, if_pos hn⟩⟩
  rintro ⟨m, rfl, h⟩
  split_ifs at h with hm
  cases h
  exact ⟨rfl, hm⟩

theorem reads_word : Reads Json.word? WritesWord := fun n v => by
  simp only [Json.word?, Json.natUpTo?, WritesWord, Option.bind_eq_some_iff,
    Json.int?_eq_some_iff]
  refine ⟨?_, fun ⟨hv, hn⟩ => ⟨n, hv, ?_⟩⟩
  · rintro ⟨m, rfl, h⟩
    split_ifs at h with hm
    cases h
    exact ⟨by rw [Int.toNat_of_nonneg hm.1], by omega⟩
  · rw [if_pos (by omega), Int.toNat_natCast]

theorem reads_level : Reads levelOfJson? WritesLevel := fun l v => by
  rcases v with _ | _ | _ | _ | s | _ | fields
  case str =>
    refine LogLevel.ofConfigName?_eq_some_iff.trans ⟨?_, ?_⟩
    · rintro rfl
      exact .name
    · rintro ⟨⟩
      rfl
  case obj =>
    refine ⟨fun h => ?_, ?_⟩
    · simp only [levelOfJson?] at h
      split at h
      · rename_i key hkeys
        split at h
        · rename_i hnull
          obtain rfl := LogLevel.ofConfigName?_eq_some_iff.1 h
          exact .key (List.forall_mem_map.1 (eraseDups_eq_singleton_iff.1 hkeys).2) hnull
        · cases h
      · cases h
    · rintro (_ | ⟨honly, hnull⟩)
      have hkeys : (fields.map Prod.fst).eraseDups = [l.configName] :=
        eraseDups_eq_singleton_iff.2
          ⟨List.mem_map_of_mem (Json.mem_of_lookup hnull), List.forall_mem_map.2 honly⟩
      simp only [levelOfJson?, hkeys, hnull]
      exact LogLevel.ofConfigName?_eq_some_iff.2 rfl
  all_goals exact iff_of_false nofun nofun

theorem reads_rotation : Reads rotationOfJson? WritesRotation := fun p v => by
  -- What two words make of the policy, wherever they stand.
  have hpair : ∀ bytes files : Json,
      (do return (⟨← bytes.word?, ← files.word?⟩ : RotationPolicy)) = some p ↔
        WritesWord p.maxBytes bytes ∧ WritesWord p.maxFiles files := by
    intro bytes files
    simp only [Option.bind_eq_bind, Option.bind_eq_some_iff, reads_word _ _, Option.pure_def,
      Option.some.injEq]
    refine ⟨?_, fun ⟨hbytes, hfiles⟩ => ⟨_, hbytes, _, hfiles, rfl⟩⟩
    rintro ⟨b, hbytes, f, hfiles, rfl⟩
    exact ⟨hbytes, hfiles⟩
  rcases v with _ | _ | _ | _ | _ | items | fields
  case arr =>
    rcases items with _ | ⟨bytes, _ | ⟨files, _ | _⟩⟩
    case cons.cons.nil =>
      refine (hpair bytes files).trans ⟨fun ⟨hbytes, hfiles⟩ => .items hbytes hfiles, ?_⟩
      rintro (_ | ⟨hbytes, hfiles⟩)
      exact ⟨hbytes, hfiles⟩
    all_goals exact iff_of_false nofun nofun
  case obj =>
    have hread : rotationOfJson? (.obj fields) =
        (Json.lookup "max_bytes" fields).bind fun bytes =>
          (Json.lookup "max_files" fields).bind fun files => do
            return ⟨← bytes.word?, ← files.word?⟩ := by
      rcases hbytes : Json.lookup "max_bytes" fields with _ | bytes <;>
        rcases hfiles : Json.lookup "max_files" fields with _ | files <;>
        simp [rotationOfJson?, Json.record?, hbytes, hfiles]
    simp only [hread, Option.bind_eq_some_iff, hpair]
    refine ⟨fun ⟨_, hb, _, hf, hbytes, hfiles⟩ => .fields hb hf hbytes hfiles, ?_⟩
    rintro (⟨hb, hf, hbytes, hfiles⟩ | _)
    exact ⟨_, hb, _, hf, hbytes, hfiles⟩
  all_goals exact iff_of_false nofun nofun

/-! ## Fields -/

section Fields

variable {α : Type}

/-- The field, if it is there, has a value of its type. -/
def Typed (Writes : α → Json → Prop) (fields : List (String × Json)) (key : String) : Prop :=
  ∀ v, Json.lookup key fields = some v → ∃ a, Writes a v

/-- The field, if it is there, has the value `a`, which is the default otherwise. -/
def Given (Writes : α → Json → Prop) (default : α) (fields : List (String × Json)) (key : String)
    (a : α) : Prop :=
  match Json.lookup key fields with
  | none => a = default
  | some v => Writes a v

variable {Writes : α → Json → Prop} {read? : Json → Option α} {fields : List (String × Json)}
  {key : String} {default a : α}

theorem field?_eq_some_iff (hread : Reads read? Writes) :
    field? fields key default read? = some a ↔ Given Writes default fields key a := by
  unfold field? Given
  rcases Json.lookup key fields with _ | v
  · exact Option.some_inj.trans eq_comm
  · exact hread a v

theorem exists_given_iff : (∃ a, Given Writes default fields key a) ↔ Typed Writes fields key := by
  unfold Given Typed
  rcases Json.lookup key fields with _ | v <;> simp

end Fields

theorem Given.neg_iff {fields : List (String × Json)} {key : String} {n : Int}
    (h : Given WritesInt 0 fields key n) :
    n < 0 ↔ ∃ m < 0, Json.lookup key fields = some (.int m) := by
  unfold Given at h
  rcases hv : Json.lookup key fields with _ | v <;> rw [hv] at h
  · simp [h]
  · obtain ⟨rfl, -⟩ := h
    simp

/-! ## Documents -/

/-- The document has no key but those of the four settings. -/
def Known (fields : List (String × Json)) : Prop :=
  ∀ f ∈ fields, f.1 ∈ ["supports_merging", "allowed_lateness_ms", "log_level", "log_rotation"]

/-- The keys are known, and what is there has its type. -/
structure WellFormed (fields : List (String × Json)) : Prop where
  known : Known fields
  merging : Typed WritesBool fields "supports_merging"
  lateness : Typed WritesInt fields "allowed_lateness_ms"
  level : Typed WritesLevel fields "log_level"
  rotation : Typed WritesRotation fields "log_rotation"

/-- The document gives the four settings these values. -/
structure Gives (fields : List (String × Json)) (merging : Bool) (lateness : Int)
    (level : LogLevel) (rotation : RotationPolicy) : Prop where
  known : Known fields
  merging : Given WritesBool false fields "supports_merging" merging
  lateness : Given WritesInt 0 fields "allowed_lateness_ms" lateness
  level : Given WritesLevel .info fields "log_level" level
  rotation : Given WritesRotation ⟨1048576, 4⟩ fields "log_rotation" rotation

variable {fields : List (String × Json)} {merging : Bool} {lateness : Int} {level : LogLevel}
  {rotation : RotationPolicy} {c : RunnerConfig}

theorem exists_gives_iff : (∃ m n l p, Gives fields m n l p) ↔ WellFormed fields := by
  refine ⟨fun ⟨m, n, l, p, h⟩ => ?_, fun h => ?_⟩
  · exact ⟨h.known, exists_given_iff.1 ⟨m, h.merging⟩, exists_given_iff.1 ⟨n, h.lateness⟩,
      exists_given_iff.1 ⟨l, h.level⟩, exists_given_iff.1 ⟨p, h.rotation⟩⟩
  · obtain ⟨m, hm⟩ := exists_given_iff.2 h.merging
    obtain ⟨n, hn⟩ := exists_given_iff.2 h.lateness
    obtain ⟨l, hl⟩ := exists_given_iff.2 h.level
    obtain ⟨p, hp⟩ := exists_given_iff.2 h.rotation
    exact ⟨m, n, l, p, h.known, hm, hn, hl, hp⟩

theorem ofFields?_eq_some_iff : ofFields? fields = some (c, lateness) ↔
    Gives fields c.supportsMerging lateness c.logLevel c.logRotation ∧
      c.allowedLateness = lateness.toNat := by
  unfold ofFields?
  split_ifs with hknown
  · simp only [Option.bind_eq_bind, Option.bind_eq_some_iff, field?_eq_some_iff reads_bool,
      field?_eq_some_iff reads_lateness, field?_eq_some_iff reads_level,
      field?_eq_some_iff reads_rotation]
    refine ⟨?_, fun ⟨h, hn⟩ =>
      ⟨_, h.merging, _, h.lateness, _, h.level, _, h.rotation, by rw [← hn]; rfl⟩⟩
    rintro ⟨m, hm, n, hn, l, hl, p, hp, heq⟩
    cases heq
    have hkeys := fun f hf => of_decide_eq_true (List.all_eq_true.1 hknown f hf)
    exact ⟨⟨hkeys, hm, hn, hl, hp⟩, rfl⟩
  · refine iff_of_false nofun fun ⟨h, _⟩ => hknown (List.all_eq_true.2 fun f hf => ?_)
    exact decide_eq_true (h.known f hf)

theorem ofJson_of_gives (h : Gives fields merging lateness level rotation) :
    ofJson (.obj fields) = if lateness < 0 then .error .negativeLateness
      else .ok ⟨merging, lateness.toNat, level, rotation⟩ := by
  have hread : ofFields? fields = some (⟨merging, lateness.toNat, level, rotation⟩, lateness) :=
    ofFields?_eq_some_iff.2 ⟨h, rfl⟩
  simp only [ofJson, hread]

/-- A document is malformed, or the sign of its lateness decides whether it is accepted. -/
theorem ofJson_obj (fields : List (String × Json)) :
    (¬WellFormed fields ∧ ofJson (.obj fields) = .error .malformed) ∨
      ∃ m n l p, Gives fields m n l p ∧ ofJson (.obj fields) =
        if n < 0 then .error .negativeLateness else .ok ⟨m, n.toNat, l, p⟩ := by
  by_cases hw : WellFormed fields
  · obtain ⟨m, n, l, p, h⟩ := exists_gives_iff.2 hw
    exact .inr ⟨m, n, l, p, h, ofJson_of_gives h⟩
  · have hnone : ofFields? fields = none :=
      Option.eq_none_iff_forall_ne_some.2 fun (c, n) hread =>
        hw (exists_gives_iff.1 ⟨_, _, _, _, (ofFields?_eq_some_iff.1 hread).1⟩)
    exact .inl ⟨hw, by simp only [ofJson, hnone]⟩

theorem ofJson_eq_ok_iff : ofJson (.obj fields) = .ok c ↔
    Gives fields c.supportsMerging c.allowedLateness c.logLevel c.logRotation := by
  refine ⟨fun h => ?_, fun h => ?_⟩
  · rcases ofJson_obj fields with ⟨-, hread⟩ | ⟨m, n, l, p, hgives, hread⟩ <;> rw [hread] at h
    · cases h
    · split_ifs at h with hn
      cases h
      rwa [Int.toNat_of_nonneg (Int.not_lt.1 hn)]
  · rw [ofJson_of_gives h, if_neg (Int.not_lt.2 (Int.natCast_nonneg _))]
    rfl

theorem exists_ofJson_ok_iff : (∃ c, ofJson (.obj fields) = .ok c) ↔
    WellFormed fields ∧
      ∀ n, Json.lookup "allowed_lateness_ms" fields = some (.int n) → 0 ≤ n := by
  rcases ofJson_obj fields with ⟨hw, hread⟩ | ⟨m, n, l, p, hgives, hread⟩
  · simp [hread, hw]
  · have hw : WellFormed fields := exists_gives_iff.1 ⟨m, n, l, p, hgives⟩
    have hneg := hgives.lateness.neg_iff
    rw [hread]
    split_ifs with hn
    · obtain ⟨k, hk, hlookup⟩ := hneg.1 hn
      simp only [exists_false, false_iff]
      exact fun h => absurd (h.2 k hlookup) (Int.not_le.2 hk)
    · simp only [Except.ok.injEq, exists_eq', true_iff]
      exact ⟨hw, fun k hk => Int.not_lt.1 fun hlt => hn (hneg.2 ⟨k, hlt, hk⟩)⟩

theorem ofJson_eq_malformed_iff :
    ofJson (.obj fields) = .error .malformed ↔ ¬WellFormed fields := by
  rcases ofJson_obj fields with ⟨hw, hread⟩ | ⟨m, n, l, p, hgives, hread⟩
  · simp [hread, hw]
  · have hw : WellFormed fields := exists_gives_iff.1 ⟨m, n, l, p, hgives⟩
    rw [hread]
    split_ifs <;> simp [hw]

theorem ofJson_eq_negativeLateness_iff : ofJson (.obj fields) = .error .negativeLateness ↔
    WellFormed fields ∧ ∃ n < 0, Json.lookup "allowed_lateness_ms" fields = some (.int n) := by
  rcases ofJson_obj fields with ⟨hw, hread⟩ | ⟨m, n, l, p, hgives, hread⟩
  · simp [hread, hw]
  · have hw : WellFormed fields := exists_gives_iff.1 ⟨m, n, l, p, hgives⟩
    rw [hread, ← hgives.lateness.neg_iff]
    split_ifs with hn <;> simp [hn, hw]

theorem ofJson_eq_notAnObject_iff {v : Json} :
    ofJson v = .error .notAnObject ↔ ∀ fields, v ≠ .obj fields := by
  rcases v with _ | _ | _ | _ | _ | _ | fields
  case obj =>
    refine iff_of_false (fun h => ?_) fun h => h fields rfl
    rcases ofJson_obj fields with ⟨-, hread⟩ | ⟨m, n, l, p, -, hread⟩ <;> rw [hread] at h
    · cases h
    · split_ifs at h with hn
      cases h
  all_goals exact iff_of_true rfl nofun

/-- A document is accepted if and only if it is an object, its keys are known, each field that is
there has its type and the lateness, if there, is not negative. The settings then have the written
values, and the defaults elsewhere. Otherwise the error says that it is no object, or else that a
key or a type is wrong, and only then that the lateness is negative. The builders give what a
document with their arguments gives, with the greatest lateness in place of a greater one. -/
theorem ofJson_exact :
    (∀ v, (∃ c, ofJson v = .ok c) ↔ ∃ fields, v = .obj fields ∧ WellFormed fields ∧
      ∀ n, Json.lookup "allowed_lateness_ms" fields = some (.int n) → 0 ≤ n) ∧
    (∀ fields c, ofJson (.obj fields) = .ok c ↔
      Gives fields c.supportsMerging c.allowedLateness c.logLevel c.logRotation) ∧
    (∀ v, ofJson v = .error .notAnObject ↔ ∀ fields, v ≠ .obj fields) ∧
    (∀ fields, ofJson (.obj fields) = .error .malformed ↔ ¬WellFormed fields) ∧
    (∀ fields, ofJson (.obj fields) = .error .negativeLateness ↔ WellFormed fields ∧
      ∃ n < 0, Json.lookup "allowed_lateness_ms" fields = some (.int n)) ∧
    ∀ (m : Bool) (n : Nat) (l : LogLevel),
      ofJson (.obj [("supports_merging", .bool m),
          ("allowed_lateness_ms", .int (min n 9223372036854775807 : Nat)),
          ("log_level", .str l.configName)]) =
        .ok ((({} : RunnerConfig).withMerging m).withAllowedLateness n |>.withLogLevel l) := by
  refine ⟨fun v => ⟨fun ⟨c, hc⟩ => ?_, ?_⟩, fun _ _ => ofJson_eq_ok_iff,
    fun _ => ofJson_eq_notAnObject_iff, fun _ => ofJson_eq_malformed_iff,
    fun _ => ofJson_eq_negativeLateness_iff, fun m n l => ?_⟩
  · rcases v with _ | _ | _ | _ | _ | _ | fields
    case obj => exact ⟨fields, rfl, exists_ofJson_ok_iff.1 ⟨c, hc⟩⟩
    all_goals cases hc
  · rintro ⟨fields, rfl, h⟩
    exact exists_ofJson_ok_iff.2 h
  · refine ofJson_eq_ok_iff.2 ⟨by simp [Known], rfl, ⟨rfl, ?_, ?_⟩, .name, rfl⟩
    · exact Int.le_trans (by decide) (Int.natCast_nonneg _)
    · exact Int.ofNat_le.2 (Nat.min_le_right _ _)

end RunnerConfig

end PaneTriggers
