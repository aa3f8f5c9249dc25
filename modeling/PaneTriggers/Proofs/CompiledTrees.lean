import Mathlib.Tactic.Common
import PaneTriggers.Trigger.Config

/-!
# What a trigger document compiles to

A document asks for up to two triggers that fire at most once per arming (`TriggerConfig.parts`).
Each of these parts stands for a trigger or has a fault, and never both, whatever else the document
holds (`standsFor_or_hasFault`). A document whose parts all stand for triggers compiles to the tree
it describes, and any other fails with the fault of its first faulty part (`compile_exact`).
-/

namespace PaneTriggers.TriggerConfig

variable {κ : Type}

/-- The parts of a document with their roles, in the order in which they are looked at. -/
def parts : TriggerConfig → List (String × TriggerConfig)
  | afterWatermark early late => (early.map ("early", ·)).toList ++ (late.map ("late", ·)).toList
  | c => [("root", c)]

variable (registry : String → Option κ)

/-- The part names the trigger. -/
inductive StandsFor : TriggerConfig → OnceTrigger κ → Prop where
  | endOfWindow : StandsFor endOfWindow .endOfWindow
  | never : StandsFor never .never
  | custom {name : String} {k : κ} (h : registry name = some k) :
    StandsFor (custom name) (.custom k)

/-- The part in its role names no trigger, for the given reason. What lies below an early or late
`afterWatermark` is no matter. -/
inductive HasFault : String × TriggerConfig → ConfigError → Prop where
  | unregistered {role name : String} (h : registry name = none) :
    HasFault (role, custom name) (.unknownCustomTrigger name)
  | nested {role : String} {early late : Option TriggerConfig} :
    HasFault (role, afterWatermark early late) (.notSingleFiring role)

/-- The first part that names no trigger does so for the given reason. -/
inductive FirstFault : List (String × TriggerConfig) → ConfigError → Prop where
  | here {p : String × TriggerConfig} {ps : List (String × TriggerConfig)} {e : ConfigError}
    (h : HasFault registry p e) : FirstFault (p :: ps) e
  | later {p : String × TriggerConfig} {ps : List (String × TriggerConfig)} {e : ConfigError}
    {t : OnceTrigger κ} (hp : StandsFor registry p.2 t) (h : FirstFault ps e) :
    FirstFault (p :: ps) e

/-- The tree has the shape of the document, with its triggers in the places of their names. Late
firings alone go with an early trigger that never fires, and neither leaves the end of the window.
-/
inductive Describes : TriggerConfig → Trigger κ → Prop where
  | root {c : TriggerConfig} {t : OnceTrigger κ} (h : StandsFor registry c t) :
    Describes c (.once t)
  | bare : Describes (afterWatermark none none) (.once .endOfWindow)
  | early {c : TriggerConfig} {t : OnceTrigger κ} (h : StandsFor registry c t) :
    Describes (afterWatermark (some c) none) (.earlyAndLate ⟨t, none⟩)
  | late {c : TriggerConfig} {t : OnceTrigger κ} (h : StandsFor registry c t) :
    Describes (afterWatermark none (some c)) (.earlyAndLate ⟨.never, some t⟩)
  | both {c c' : TriggerConfig} {t t' : OnceTrigger κ} (h : StandsFor registry c t)
    (h' : StandsFor registry c' t') :
    Describes (afterWatermark (some c) (some c')) (.earlyAndLate ⟨t, some t'⟩)

variable {registry} {c : TriggerConfig} {e : ConfigError}

/-- A part names a trigger or has a fault. -/
theorem standsFor_or_hasFault (registry : String → Option κ) (role : String) (c : TriggerConfig) :
    (∃ t, StandsFor registry c t) ∨ ∃ e, HasFault registry (role, c) e := by
  rcases c with _ | _ | name | ⟨early, late⟩
  · exact .inl ⟨_, .endOfWindow⟩
  · exact .inl ⟨_, .never⟩
  · rcases h : registry name with _ | k
    · exact .inr ⟨_, .unregistered h⟩
    · exact .inl ⟨_, .custom h⟩
  · exact .inr ⟨_, .nested⟩

theorem exists_standsFor_iff : (∃ t, StandsFor registry c t) ↔
    (∀ name, c = custom name → (registry name).isSome) ∧
      ∀ early late, c ≠ afterWatermark early late := by
  refine ⟨?_, fun ⟨hcustom, hnested⟩ => ?_⟩
  · rintro ⟨t, _ | _ | h⟩ <;> simp [*]
  · rcases standsFor_or_hasFault registry "root" c with ht | ⟨e, h | _⟩
    · exact ht
    · simpa [h] using hcustom _ rfl
    · exact absurd rfl (hnested _ _)

theorem StandsFor.parts_eq {t : OnceTrigger κ} (h : StandsFor registry c t) :
    c.parts = [("root", c)] := by
  rcases h <;> rfl

/-- A document describes a tree if all its parts name triggers. -/
theorem exists_describes_iff :
    (∃ t, Describes registry c t) ↔ ∀ p ∈ c.parts, ∃ t, StandsFor registry p.2 t := by
  refine ⟨?_, fun h => ?_⟩
  · rintro ⟨t, ht | _ | ht | ht | ⟨ht, ht'⟩⟩
    · rw [ht.parts_eq]
      exact List.forall_mem_singleton.2 ⟨_, ht⟩
    · exact List.forall_mem_nil _
    · exact List.forall_mem_singleton.2 ⟨_, ht⟩
    · exact List.forall_mem_singleton.2 ⟨_, ht⟩
    · exact List.forall_mem_cons.2 ⟨⟨_, ht⟩, List.forall_mem_singleton.2 ⟨_, ht'⟩⟩
  · rcases c with _ | _ | name | ⟨_ | early, _ | late⟩
    · exact ⟨_, .root .endOfWindow⟩
    · exact ⟨_, .root .never⟩
    · obtain ⟨t, ht⟩ := List.forall_mem_singleton.1 h
      exact ⟨_, .root ht⟩
    · exact ⟨_, .bare⟩
    · obtain ⟨t, ht⟩ := List.forall_mem_singleton.1 h
      exact ⟨_, .late ht⟩
    · obtain ⟨t, ht⟩ := List.forall_mem_singleton.1 h
      exact ⟨_, .early ht⟩
    · obtain ⟨⟨t, ht⟩, hlate⟩ := List.forall_mem_cons.1 h
      obtain ⟨t', ht'⟩ := List.forall_mem_singleton.1 hlate
      exact ⟨_, .both ht ht'⟩

/-- Of parts that do not all name triggers, one is the first to have a fault. -/
theorem forall_standsFor_or_firstFault (registry : String → Option κ) :
    ∀ ps : List (String × TriggerConfig),
      (∀ p ∈ ps, ∃ t, StandsFor registry p.2 t) ∨ ∃ e, FirstFault registry ps e
  | [] => .inl (List.forall_mem_nil _)
  | (role, c) :: ps => by
    rcases standsFor_or_hasFault registry role c with ⟨t, ht⟩ | ⟨e, he⟩
    · rcases forall_standsFor_or_firstFault registry ps with h | ⟨e, he⟩
      · exact .inl (List.forall_mem_cons.2 ⟨⟨t, ht⟩, h⟩)
      · exact .inr ⟨e, .later ht he⟩
    · exact .inr ⟨e, .here he⟩

theorem compileOnce_of_standsFor {t : OnceTrigger κ} (h : StandsFor registry c t) (role : String) :
    c.compileOnce registry role = .ok t := by
  rcases h with _ | _ | h
  · rfl
  · rfl
  · simp only [compileOnce, h]

theorem compileOnce_of_hasFault {role : String} (h : HasFault registry (role, c) e) :
    c.compileOnce registry role = .error e := by
  rcases h with h | _
  · simp only [compileOnce, h]
  · rfl

theorem compile_of_describes {t : Trigger κ} (h : Describes registry c t) :
    c.compile registry = .ok t := by
  rcases h with h | _ | h | h | ⟨h, h'⟩
  · have hc := compileOnce_of_standsFor h "root"
    rcases h <;> simp only [compile, hc] <;> rfl
  · rfl
  · simp only [compile, compilePart, compileOnce_of_standsFor h]
    rfl
  · simp only [compile, compilePart, compileOnce_of_standsFor h]
    rfl
  · simp only [compile, compilePart, compileOnce_of_standsFor h, compileOnce_of_standsFor h']
    rfl

theorem compile_of_firstFault (h : FirstFault registry c.parts e) :
    c.compile registry = .error e := by
  rcases c with _ | _ | name | ⟨_ | early, _ | late⟩
  · rcases h with ⟨⟨⟩⟩ | ⟨_, ⟨⟩⟩
  · rcases h with ⟨⟨⟩⟩ | ⟨_, ⟨⟩⟩
  · rcases h with h | ⟨_, ⟨⟩⟩
    simp only [compile, compileOnce_of_hasFault h]
    rfl
  · rcases h with ⟨⟩
  · rcases h with h | ⟨_, ⟨⟩⟩
    simp only [compile, compilePart, compileOnce_of_hasFault h]
    rfl
  · rcases h with h | ⟨_, ⟨⟩⟩
    simp only [compile, compilePart, compileOnce_of_hasFault h]
    rfl
  · rcases h with h | ⟨ht, h | ⟨_, ⟨⟩⟩⟩
    · simp only [compile, compilePart, compileOnce_of_hasFault h]
      rfl
    · simp only [compile, compilePart, compileOnce_of_standsFor ht, compileOnce_of_hasFault h]
      rfl

theorem describes_or_firstFault (registry : String → Option κ) (c : TriggerConfig) :
    (∃ t, Describes registry c t) ∨ ∃ e, FirstFault registry c.parts e := by
  rw [exists_describes_iff]
  exact forall_standsFor_or_firstFault registry c.parts

theorem compile_eq_ok_iff {t : Trigger κ} :
    c.compile registry = .ok t ↔ Describes registry c t := by
  refine ⟨fun h => ?_, compile_of_describes⟩
  rcases describes_or_firstFault registry c with ⟨t', ht⟩ | ⟨e, he⟩
  · rw [compile_of_describes ht, Except.ok.injEq] at h
    exact h ▸ ht
  · rw [compile_of_firstFault he] at h
    cases h

theorem compile_eq_error_iff : c.compile registry = .error e ↔ FirstFault registry c.parts e := by
  refine ⟨fun h => ?_, compile_of_firstFault⟩
  rcases describes_or_firstFault registry c with ⟨t, ht⟩ | ⟨e', he⟩
  · rw [compile_of_describes ht] at h
    cases h
  · rw [compile_of_firstFault he, Except.error.injEq] at h
    exact h ▸ he

/-- A document compiles if and only if the custom names among its parts are registered and no part
is an `afterWatermark` again, however deep it goes below them. It compiles to the tree that it
describes. Otherwise the error is the fault of the early part if that has one, and else that of the
late part. -/
theorem compile_exact (registry : String → Option κ) (c : TriggerConfig) :
    ((∃ t, c.compile registry = .ok t) ↔
      ∀ p ∈ c.parts, (∀ name, p.2 = custom name → (registry name).isSome) ∧
        ∀ early late, p.2 ≠ afterWatermark early late) ∧
    (∀ t, c.compile registry = .ok t ↔ Describes registry c t) ∧
    ∀ e, c.compile registry = .error e ↔ FirstFault registry c.parts e := by
  refine ⟨?_, fun t => compile_eq_ok_iff, fun e => compile_eq_error_iff⟩
  simp only [compile_eq_ok_iff, exists_describes_iff, exists_standsFor_iff]

end PaneTriggers.TriggerConfig
