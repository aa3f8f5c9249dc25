import PaneTriggers.Proofs.BarredWindows

/-!
# Windows that take what comes

A composite refuses an element if all its children are done. Without merges they are never all done
in a window that is open, provided that custom triggers do not mark their own node at an element:
the late child is armed again whenever it fires, and without one the root is done with the early
child (`EarlyAndLate.Receptive`). Elements, firings and collections keep it so, hence no element
fails on its way (`Runner.visits_all`).
-/

namespace PaneTriggers

variable {κ σ : Type} {c : EarlyAndLate κ} {s : Scope} {w w' : WindowState} {p : Position}

/-- The state differs at most at `p`, and `p` was not marked. -/
def StaysOpen (p : Position) (w w' : WindowState) : Prop :=
  NodeAt p w w' ∧ (w.finished p = false → w'.finished p = false)

theorem StaysOpen.refl (p : Position) (w : WindowState) : StaysOpen p w w := ⟨.refl p w, id⟩

theorem NodeAt.finished_eq {q : Position} (h : NodeAt p w w') (hq : q ≠ p) :
    w'.finished q = w.finished q :=
  congrArg NodeState.finished (h q hq)

namespace EarlyAndLate

/-- A late child is open. Without one, the root is done once the early child is. -/
structure Receptive (c : EarlyAndLate κ) (w : WindowState) : Prop where
  late : c.late ≠ none → w.finished .late = false
  alone : c.late = none → w.finished .early = true → w.finished .root = true

theorem receptive_empty : c.Receptive .empty :=
  ⟨fun _ => WindowState.finished_empty, fun _ h => by simp at h⟩

theorem Receptive.hasOpenChild (h : c.Receptive w) (hw : w.finished .root = false) :
    c.HasOpenChild w := by
  by_cases hc : c.late = none
  · refine .inl (Bool.eq_false_iff.2 fun he => ?_)
    rw [h.alone hc he] at hw
    cases hw
  · exact .inr ⟨hc, h.late hc⟩

theorem Receptive.early (h : c.Receptive w) (hw : StaysOpen .early w w') : c.Receptive w' := by
  refine ⟨fun hc => ?_, fun hc he => ?_⟩
  · rw [hw.1.finished_eq Position.late_ne_early, h.late hc]
  · rw [hw.1.finished_eq Position.root_ne_early]
    refine h.alone hc (Bool.not_eq_false _ ▸ fun hf => ?_)
    rw [hw.2 hf] at he
    cases he

theorem Receptive.fed {merging : Bool} (h : c.Receptive w) (hw : c.Fed StaysOpen merging w w') :
    c.Receptive w' := by
  have late : ∀ {w w' : WindowState}, c.Receptive w → c.late ≠ none → StaysOpen .late w w' →
      c.Receptive w' := fun h hc hw => ⟨fun _ => hw.2 (h.late hc), fun hn => absurd hn hc⟩
  cases hw with
  | early _ _ ha => exact h.early ha
  | late _ _ hc _ ha => exact late h hc ha
  | alone _ _ ha => exact h.early ha
  | both _ hc ha hb => exact late (h.early ha) hc hb

theorem Receptive.fired {ended : Bool} (h : c.Receptive w) : c.Receptive (c.fired ended w) := by
  refine ⟨fun hc => ?_, fun hc he => ?_⟩
  · rw [finished_late_fired, h.late hc, Bool.false_and]
  · rw [finished_early_fired] at he
    rw [finished_root_fired, hc, he, Option.isNone_none, Bool.true_and, Bool.or_true]

variable [CustomTrigger κ]

theorem onFire_leaves_receptive (hc : c.Customs OwnNode) (hw : c.Receptive w) :
    Ensures (fun q => q.state = w) ((Node.root (.earlyAndLate c)).onFire s)
      (fun _ q => c.Receptive q.state) fun _ _ => True := by
  refine (onFire_ownNode hc (.inl trivial)).onReturn ?_
  rintro _ q ⟨w₁, -, hsame, hq⟩
  have hw₁ : c.Receptive w₁ := ⟨fun hn => by rw [hsame, hw.late hn], fun hn he => by
    rw [hsame] at he ⊢
    exact hw.alone hn he⟩
  rw [hq]
  exact hw₁.fired

end EarlyAndLate

/-- An open window of the tree has an open child, and keeps one. -/
def Trigger.Receptive : Trigger κ → WindowState → Prop
  | .once _, _ => True
  | .earlyAndLate c, w => c.Receptive w

namespace Trigger

variable {t : Trigger κ}

theorem receptive_empty : t.Receptive .empty := by
  cases t with
  | once t => trivial
  | earlyAndLate c => exact EarlyAndLate.receptive_empty

variable [CustomTrigger κ]

theorem Receptive.onElement (hown : t.Customs OwnNode) (hopen : t.Customs LeavesOpen)
    (hret : t.Customs NeverFails) (hs : s.Open) (hw : t.Receptive w)
    (hroot : w.finished .root = false) (at' : Timestamp) (us : List Window) :
    Ensures (fun q => q.state = w) ((Node.root t).onElement s at' us)
      (fun _ q => t.Receptive q.state) fun _ _ => False := by
  cases t with
  | once t =>
    refine (Leaf.onElement_ensures (A := fun _ _ _ => True) (l := ⟨.root, t⟩)
      (fun _ _ => trivial) hs at' us ?_).onReturn fun _ _ _ => trivial
    exact OnceTrigger.IfCustom.mono (fun k hk =>
      .of_ok (fun _ _ _ => trivial) (.inr fun d => hk.onElement _ _ _ d hs)) hret
  | earlyAndLate c =>
    have hopen : c.Customs LeavesOpen := hopen
    have hk : c.Customs fun k => OwnNode k ∧ LeavesOpen k ∧ NeverFails k :=
      EarlyAndLate.Customs.and (fun _ h hn => ⟨h.1, h.2, hn⟩)
        (EarlyAndLate.Customs.and (fun _ ho hl => And.intro ho hl) hown hopen) hret
    refine (EarlyAndLate.onElement_ensures (A := StaysOpen) (fun _ _ _ _ => .refl _ _) hs
      (fun l hl => (hk.leaves l hl).mono fun k hk => ?_) (.inr (hw.hasOpenChild hroot))).onReturn
        fun _ _ hq => hw.fed hq
    exact .of_ok (fun d d' hd => ⟨hk.1.onElement _ _ _ _ _ hd, hk.2.1 _ _ _ _ _ hd⟩)
      (.inr fun d => hk.2.2.onElement _ _ _ d hs)

theorem Receptive.onFire (hown : t.Customs OwnNode) (hw : t.Receptive w) :
    Ensures (fun q => q.state = w) ((Node.root t).onFire s) (fun _ q => t.Receptive q.state)
      fun _ _ => True := by
  cases t with
  | once t =>
    rintro q -
    cases (Node.root (.once t)).onFire s q <;> trivial
  | earlyAndLate c => exact EarlyAndLate.onFire_leaves_receptive hown hw

end Trigger

/-- The operation neither merges windows nor fires those that are woken. -/
def Operation.Separate : Operation → Prop
  | .merge _ _ | .tick _ => False
  | _ => True

namespace Runner

/-- All windows of the runner are receptive. -/
structure Receptive (t : Trigger κ) (v : Seen κ) : Prop where
  root_eq : v.root = .root t
  windows : ∀ w, t.Receptive (v.store w)

variable [CustomTrigger κ] {t : Trigger κ} {v v' : Seen κ} {e : Event} {u : Window}

theorem Occurs.receptive (hown : t.Customs OwnNode) (hopen : t.Customs LeavesOpen)
    (hret : t.Customs NeverFails) (h : Occurs v e v') (hv : Receptive t v) : Receptive t v' := by
  refine ⟨h.root_eq.trans hv.root_eq, fun w => ?_⟩
  by_cases hu : e.window? = some w
  · have fired : ∀ {q : Progress κ}, v.firing w = .ok () q → t.Receptive q.state := by
      intro q hq
      unfold firing at hq
      rw [hv.root_eq] at hq
      exact ((hv.windows w).onFire hown).of_ok rfl hq
    cases h with
    | dropped => exact hv.windows w
    | taken hn hq =>
      obtain rfl := Option.some.inj hu
      have hclosed := open_of_dropReason hn
      unfold closedIn at hclosed
      unfold taking at hq
      rw [hv.root_eq] at hclosed hq
      have htaken := ((hv.windows _).onElement hown hopen hret (v.scope_open _) hclosed _ _).of_ok
        rfl hq
      exact (congrArg t.Receptive (Contents.put_same _ _ _)).mpr htaken
    | stalled hi =>
      obtain ⟨ts, rfl⟩ := hi
      exact hv.windows w
    | fired _ hq =>
      obtain rfl := Option.some.inj hu
      rw [fired_store, Contents.put_same]
      exact fired hq
    | forced hq =>
      obtain rfl := Option.some.inj hu
      rw [fired_store, Contents.put_same]
      exact fired hq
    | advanced => cases hu
    | collected =>
      obtain rfl := Option.some.inj hu
      exact (congrArg t.Receptive (Contents.put_same _ _ _)).mpr Trigger.receptive_empty
  · rw [h.store_eq hu]
    exact hv.windows w

theorem Leads.receptive {told : List Event} (hown : t.Customs OwnNode)
    (hopen : t.Customs LeavesOpen) (hret : t.Customs NeverFails) (h : Leads v told v')
    (hv : Receptive t v) : Receptive t v' := by
  obtain ⟨es, hc, -⟩ := h
  exact hc.keeps (fun _ ho => ho.receptive hown hopen hret) hv

section Runs

variable [StateStore σ] [LawfulStore σ] {r : Runner κ σ}

theorem step_receptive (hown : t.Customs OwnNode) (hopen : t.Customs LeavesOpen)
    (hret : t.Customs NeverFails) {op : Operation} (hop : op.Separate) (h : Receptive t r.seen) :
    Receptive t (r.step op).2.seen := by
  by_cases hplain : op.Plain
  · obtain ⟨told, hl, -⟩ := step_leads hplain r
    exact hl.receptive hown hopen hret h
  · cases op with
    | windowState w =>
      have hread : Ensures (fun r : Runner κ σ => r.seen = _) (perform (.windowState w))
          (fun _ r' => r'.seen = r.seen) fun _ r' => r'.seen = r.seen :=
        .bind (windowState_ensures.onFail fun _ _ h => h.2) fun _ => .pure fun _ h => h.2
      rw [step_ensures hread rfl]
      exact h
    | merge | tick => exact hop.elim
    | element | advance | shouldFire | fire | fireIfReady | isClosed | collect =>
      exact (hplain trivial).elim

theorem visits_all (hown : t.Customs OwnNode) (hopen : t.Customs LeavesOpen)
    (hret : t.Customs NeverFails) (hF : ¬LawfulStore.Faulty σ) (assigned : List Window)
    (at' : Timestamp) : ∀ (us : List Window) {r : Runner κ σ}, Receptive t r.seen →
      (visitsFrom assigned at' r us).map Prod.snd = us
  | [], _, _ => rfl
  | u :: us, r, h => by
    cases hx : deliver assigned at' u r with
    | ok _ r' =>
      have hl : Leads r.seen [] r'.seen := deliver_leads.of_ok (.refl _) hx
      rw [visitsFrom_of_ok hx, List.map_cons,
        visits_all hown hopen hret hF assigned at' us (hl.receptive hown hopen hret h)]
    | error e r' =>
      obtain ⟨hf | ⟨hn, e, q, hq⟩, -⟩ := deliver_ensures.of_error rfl hx
      · exact (hF hf).elim
      · have hclosed := open_of_dropReason hn
        unfold closedIn at hclosed
        unfold taking at hq
        rw [h.root_eq] at hclosed hq
        exact (((h.windows u).onElement hown hopen hret (r.seen.scope_open u) hclosed _ _).of_error
          rfl hq).elim

end Runs

end Runner

end PaneTriggers
