import PaneTriggers.Proofs.Conduct
import PaneTriggers.Trigger.Config
import PaneTriggers.Trigger.Scripted

/-!
# Trees for a later stage

The tree for a later stage has the nodes of the tree, each with the trigger for the later stage in
its place (`Node.nodes_continuation`), so nothing about its shape changes. If that is so of its
custom triggers (`Continues`), the tree for the stage after the next is the same again, and the
guarantee of the tree is kept (`Trigger.continuation_laws`).
-/

namespace PaneTriggers

variable {κ : Type}

/-- The kind of a trigger without children. -/
def OnceTrigger.kind : OnceTrigger κ → TriggerKind
  | endOfWindow => .endOfWindow
  | never => .never
  | custom _ => .custom

namespace Trigger

/-- The kind of a tree. -/
def kind : Trigger κ → TriggerKind
  | once t => t.kind
  | earlyAndLate _ => .afterWatermark

variable {t : Trigger κ} {child : OnceTrigger κ}

theorem isSome_withEarly? :
    (t.withEarly? child).isSome ↔ t.kind = .endOfWindow ∨ t.kind = .afterWatermark := by
  rcases t with (_ | _ | _) | _ <;> simp [withEarly?, kind, OnceTrigger.kind]

theorem isSome_withLate? :
    (t.withLate? child).isSome ↔ t.kind = .endOfWindow ∨ t.kind = .afterWatermark := by
  rcases t with (_ | _ | _) | _ <;> simp [withLate?, kind, OnceTrigger.kind]

end Trigger

/-- The position of a node and the kind of its trigger. -/
def Node.shape (n : Node κ) : Position × TriggerKind := (n.position, n.trigger.kind)

variable [CustomTrigger κ]

/-- All later stages have one trigger, by its description, with the guarantee of this one. -/
structure Continues (k : κ) : Prop where
  describe_eq : CustomTrigger.describe (CustomTrigger.continuation (CustomTrigger.continuation k)) =
    CustomTrigger.describe (CustomTrigger.continuation k)
  guarantee_eq : ∀ w, CustomTrigger.guarantee (CustomTrigger.continuation k) w =
    CustomTrigger.guarantee k w

namespace OnceTrigger

variable {t : OnceTrigger κ}

theorem kind_continuation (t : OnceTrigger κ) : t.continuation.kind = t.kind := by
  rcases t <;> rfl

theorem continuation_beq (ht : t.IfCustom Continues) :
    (t.continuation.continuation == t.continuation) = true := by
  rcases t with _ | _ | k
  · rfl
  · rfl
  · show (CustomTrigger.describe _ == CustomTrigger.describe _) = true
    exact beq_iff_eq.2 ht.describe_eq

theorem guarantee_continuation (ht : t.IfCustom Continues) (w : Window) :
    t.continuation.guarantee w = t.guarantee w := by
  rcases t with _ | _ | k
  · rfl
  · rfl
  · exact ht.guarantee_eq w

end OnceTrigger

theorem EarlyAndLate.continuation_beq {c : EarlyAndLate κ} (hc : c.Customs Continues) :
    (c.continuation.continuation == c.continuation) = true := by
  obtain ⟨early, late⟩ := c
  refine Bool.and_eq_true_iff.2 ⟨OnceTrigger.continuation_beq hc.early, ?_⟩
  rcases late with _ | late
  · rfl
  · exact OnceTrigger.continuation_beq (hc.late late rfl)

namespace Node

/-- The node for a later stage. -/
def continuation (n : Node κ) : Node κ := ⟨n.position, n.trigger.continuation⟩

theorem shape_continuation (n : Node κ) : n.continuation.shape = n.shape := by
  obtain ⟨p, t | c⟩ := n
  · exact congrArg (p, ·) t.kind_continuation
  · rfl

/-- The nodes for a later stage are those of the tree, in their order, each for that stage. -/
theorem nodes_continuation (n : Node κ) : n.continuation.nodes = n.nodes.map continuation := by
  obtain ⟨p, t | ⟨early, _ | late⟩⟩ := n <;> rfl

end Node

namespace Trigger

variable {t : Trigger κ}

theorem continuation_beq (ht : t.Customs Continues) :
    (t.continuation.continuation == t.continuation) = true := by
  rcases t with t | c
  · exact OnceTrigger.continuation_beq ht
  · exact EarlyAndLate.continuation_beq ht

theorem guarantee_continuation (ht : t.Customs Continues) (w : Window) :
    t.continuation.guarantee w = t.guarantee w := by
  rcases t with t | c
  · exact OnceTrigger.guarantee_continuation ht w
  · rfl

theorem withEarly?_continuation (t : Trigger κ) (child : OnceTrigger κ) :
    t.continuation.withEarly? child.continuation =
      (t.withEarly? child).map EarlyAndLate.continuation := by
  rcases t with (_ | _ | _) | _ <;> rfl

theorem withLate?_continuation (t : Trigger κ) (child : OnceTrigger κ) :
    t.continuation.withLate? child.continuation =
      (t.withLate? child).map EarlyAndLate.continuation := by
  rcases t with (_ | _ | _) | _ <;> rfl

theorem continuationOf_eq_ok_iff {ts : List (Trigger κ)} {t' : Trigger κ} :
    t.continuationOf ts = .ok t' ↔ t.once?.isSome ∧ ts = [] ∧ t' = t.continuation := by
  rcases t with t | c
  · rcases ts with _ | ⟨t₁, ts⟩
    · simp [continuationOf, once?, continuation, eq_comm]
    · simp [continuationOf]
  · simp [continuationOf, once?]

/-- The tree for a later stage is the same for all later stages. It has the positions and kinds of
nodes of the tree, in the same order, and its guarantee. Early and late firings may be added before
or after going to the later stage. From the continuations of its children a tree is built only if it
has none, and is then the tree for the later stage. -/
theorem continuation_laws (ht : t.Customs Continues) :
    (t.continuation.continuation == t.continuation) = true ∧
    (Node.root t.continuation).nodes.map Node.shape = (Node.root t).nodes.map Node.shape ∧
    (∀ w, t.continuation.guarantee w = t.guarantee w) ∧
    (∀ child,
      ((t.withEarly? child).isSome ↔ t.kind = .endOfWindow ∨ t.kind = .afterWatermark) ∧
      t.continuation.withEarly? child.continuation =
        (t.withEarly? child).map EarlyAndLate.continuation) ∧
    (∀ child,
      ((t.withLate? child).isSome ↔ t.kind = .endOfWindow ∨ t.kind = .afterWatermark) ∧
      t.continuation.withLate? child.continuation =
        (t.withLate? child).map EarlyAndLate.continuation) ∧
    ∀ ts t', t.continuationOf ts = .ok t' ↔ t.once?.isSome ∧ ts = [] ∧ t' = t.continuation := by
  have hnodes : (Node.root t.continuation).nodes = (Node.root t).nodes.map Node.continuation :=
    (Node.root t).nodes_continuation
  refine ⟨continuation_beq ht, ?_, guarantee_continuation ht,
    fun child => ⟨isSome_withEarly?, withEarly?_continuation t child⟩,
    fun child => ⟨isSome_withLate?, withLate?_continuation t child⟩,
    fun ts t' => continuationOf_eq_ok_iff⟩
  rw [hnodes, List.map_map]
  exact List.map_congr_left fun n _ => n.shape_continuation

end Trigger

theorem ScriptedTrigger.continues (k : ScriptedTrigger) : Continues k := ⟨rfl, fun _ => rfl⟩

/-- Counting triggers count to one in later stages, so the tree for these is not the tree. -/
theorem Trigger.continuation_laws_scripted :
    let late : OnceTrigger ScriptedTrigger :=
      .custom { threshold := .clamp 3, guaranteeOffset := some 7 }
    let t : Trigger ScriptedTrigger :=
      .earlyAndLate ⟨.custom { threshold := .clamp 2 }, some late⟩
    t.Customs Continues ∧ (t.continuation == t) = false ∧
      (t.continuation.continuation == t.continuation) = true ∧
      (Node.root t.continuation).nodes.map Node.shape =
        [(.root, .afterWatermark), (.early, .custom), (.late, .custom)] ∧
      (∀ w, t.continuation.guarantee w = w.maxTimestamp) ∧
      t.continuation.withEarly? late.continuation =
        some ⟨late.continuation, some late.continuation⟩ ∧
      t.continuationOf [] ≠ .ok t.continuation := by
  intro late t
  have ht : t.Customs Continues :=
    .pair (ScriptedTrigger.continues _) (ScriptedTrigger.continues _)
  obtain ⟨htwice, hshape, hguarantee, hearly, -, hlist⟩ := Trigger.continuation_laws ht
  refine ⟨ht, by decide +kernel, htwice, hshape, hguarantee, (hearly late).2, ?_⟩
  rw [Ne, hlist]
  exact fun h => Bool.false_ne_true h.1

end PaneTriggers
