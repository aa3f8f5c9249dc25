import PaneTriggers.Proofs.ClosedWindows
import PaneTriggers.Store.Faulty

/-!
# Windows that take no more elements

An element is dropped for a window that has expired or is closed. Both last: what has expired stays
so, and what is closed stays so until it is collected, which only expired windows are. So a window
that has dropped an element hands no later one to the tree (`Runner.dropped_for_good`), whatever
hooks and store calls fail on the way.
-/

namespace PaneTriggers

/-- What becomes of an element that comes to one of its windows: it is dropped or handed to the
tree, or the state of the window cannot be loaded. -/
inductive Fate where
  | dropped (reason : DropReason)
  | handed
  | unread
deriving DecidableEq

namespace Runner

variable {κ σ : Type} [CustomTrigger κ]

section Visits

variable [StateStore σ]

/-- Finds a reason to drop an element for a window, or else the state of the window. -/
def examine (w : Window) : RunnerM κ σ (Except DropReason WindowState) := do
  if (← get).expired w then return .error .pastAllowedLateness
  else
    let s ← windowState w
    if (← get).closedIn s then return .error .windowClosed
    else return .ok s

theorem deliver_eq (assigned : List Window) (t : Timestamp) (w : Window) :
    (deliver assigned t w : RunnerM κ σ Unit) = (do
      match ← examine w with
      | .error reason => drop w reason
      | .ok s => accept assigned t w s) := by
  unfold deliver examine
  rw [bind_assoc]
  congr 1
  funext r
  split_ifs
  · rw [pure_bind]
  · rw [bind_assoc]
    congr 1
    funext s
    rw [bind_assoc]
    congr 1
    funext r'
    split_ifs <;> rw [pure_bind]

/-- What becomes of an element that comes to the window now. -/
def fate (r : Runner κ σ) (w : Window) : Fate :=
  match examine w r with
  | .ok (.error reason) _ => .dropped reason
  | .ok (.ok _) _ => .handed
  | .error _ _ => .unread

theorem deliver_of_fate (assigned : List Window) (t : Timestamp) (w : Window) (r : Runner κ σ) :
    match r.fate w with
    | .dropped reason => ∃ r', deliver assigned t w r = drop w reason r'
    | .handed => ∃ s r', deliver assigned t w r = accept assigned t w s r'
    | .unread => ∃ e r', deliver assigned t w r = .error e r' := by
  rw [deliver_eq]
  unfold fate
  rcases hx : examine w r with ⟨reason | s, r'⟩ | ⟨e, r'⟩
  · exact ⟨r', bind_of_ok hx⟩
  · exact ⟨s, r', bind_of_ok hx⟩
  · exact ⟨e, r', bind_of_error hx⟩

/-- The windows that an element comes to, each with the runner as it is then. The element was
assigned to `assigned`, and is still to come to the windows of the list. -/
def visitsFrom (assigned : List Window) (t : Timestamp) (r : Runner κ σ) :
    List Window → List (Runner κ σ × Window)
  | [] => []
  | w :: ws => (r, w) :: match deliver assigned t w r with
    | .ok _ r' => visitsFrom assigned t r' ws
    | .error _ _ => []

def visitsOf (r : Runner κ σ) : Operation → List (Runner κ σ × Window)
  | .element ws t => visitsFrom ws t r ws
  | _ => []

/-- The windows to which elements come in a run. -/
def visits (r : Runner κ σ) : List Operation → List (Runner κ σ × Window)
  | [] => []
  | op :: ops => r.visitsOf op ++ visits (r.step op).2 ops

/-- What becomes of the elements of a run, window by window. -/
def fates (r : Runner κ σ) (ops : List Operation) : List (Window × Fate) :=
  (r.visits ops).map fun x => (x.2, x.1.fate x.2)

/-- The runner that the deliveries to the windows end in, be it in a failure. -/
def delivered (assigned : List Window) (t : Timestamp) (ws : List Window) (r : Runner κ σ) :
    Runner κ σ :=
  match ws.forM (deliver assigned t) r with
  | .ok _ r' => r'
  | .error _ r' => r'

section Delivered

variable {assigned ws : List Window} {t : Timestamp} {w : Window} {r r' : Runner κ σ}

theorem delivered_of_ok (h : deliver assigned t w r = .ok () r') :
    delivered assigned t (w :: ws) r = delivered assigned t ws r' := by
  have hrest : (w :: ws).forM (deliver assigned t) r = ws.forM (deliver assigned t) r' :=
    bind_of_ok h
  unfold delivered
  rw [hrest]

theorem delivered_of_error {e : RunnerError} (h : deliver assigned t w r = .error e r') :
    delivered assigned t (w :: ws) r = r' := by
  have hend : (w :: ws).forM (deliver assigned t) r = .error e r' := bind_of_error h
  unfold delivered
  rw [hend]

theorem visitsFrom_of_ok (h : deliver assigned t w r = .ok () r') :
    visitsFrom assigned t r (w :: ws) = (r, w) :: visitsFrom assigned t r' ws := by
  rw [visitsFrom, h]

theorem visitsFrom_of_error {e : RunnerError} (h : deliver assigned t w r = .error e r') :
    visitsFrom assigned t r (w :: ws) = [(r, w)] := by
  rw [visitsFrom, h]

end Delivered

theorem step_element (ws : List Window) (t : Timestamp) (r : Runner κ σ) :
    (r.step (.element ws t)).2 = delivered ws t ws r := by
  unfold delivered
  cases h : ws.forM (deliver ws t) r with
  | ok a r' =>
    have hs : r.step (.element ws t) = (.ok .done, r') := step_of_ok (bind_of_ok h)
    rw [hs]
  | error e r' =>
    have hs : r.step (.element ws t) = (.error e, r') := step_of_error (bind_of_error h)
    rw [hs]

end Visits

variable {t : Trigger κ} {v v' : Seen κ} {w : Window} {e : Event}

theorem dropReason_ne_none : v.dropReason? w ≠ none ↔
    v.expired w = true ∨ v.closedIn (v.store w) = true := by
  unfold dropReason?
  split_ifs <;> simp_all

theorem Occurs.keeps_dropReason (ht : t.Customs OwnNode) (hroot : v.root = .root t)
    (h : Occurs v e v') (hw : v.dropReason? w ≠ none) : v'.dropReason? w ≠ none := by
  rw [dropReason_ne_none] at hw ⊢
  rcases hw with hexpired | hclosed
  · exact .inl (h.expired hexpired)
  · -- Only a collection opens the window, and then it has expired.
    by_cases he : e = .collected w
    · subst he
      exact .inl h.gone.expired
    · exact .inr (h.keeps_closed ht hroot he hclosed)

section Runs

variable [StateStore σ] [LawfulStore σ]

theorem examine_ensures :
    Ensures (fun r : Runner κ σ => r.seen = v) (examine w)
      (fun found _ => match found with
        | .error reason => v.dropReason? w = some reason
        | .ok _ => v.dropReason? w = none)
      fun _ _ => True := by
  refine .bind (Q := fun a r => a.seen = v ∧ r.seen = v) (.get fun r h => ⟨h, h⟩) fun a =>
    .of_fact ?_
  rintro rfl
  refine .ite (fun he => .pure fun _ _ => if_pos he) fun he => ?_
  refine .bind (windowState_ensures.onFail fun _ _ _ => trivial) fun s => .of_fact ?_
  rintro rfl
  refine .bind (Q := fun b r => b.seen = a.seen ∧ r.seen = a.seen) (.get fun r h => ⟨h, h⟩)
    fun b => .of_fact fun hb => ?_
  have hclosed : b.closedIn (a.seen.store w) = a.seen.closedIn (a.seen.store w) := by
    rw [← hb]
    rfl
  rw [hclosed]
  exact .ite (fun hc => .pure fun _ _ => (if_neg he).trans (if_pos hc)) fun hc =>
    .pure fun _ _ => (if_neg he).trans (if_neg hc)

theorem dropReason_of_dropped {r : Runner κ σ} {reason : DropReason}
    (h : r.fate w = .dropped reason) : r.seen.dropReason? w = some reason := by
  have hfound := examine_ensures (σ := σ) (v := r.seen) (w := w) r rfl
  unfold fate at h
  rcases hx : examine w r with ⟨reason' | s, r'⟩ | ⟨e, r'⟩ <;> rw [hx] at h hfound
  · injection h with h
    rw [← h]
    exact hfound
  · cases h
  · cases h

theorem dropReason_of_handed {r : Runner κ σ} (h : r.fate w = .handed) :
    r.seen.dropReason? w = none := by
  have hfound := examine_ensures (σ := σ) (v := r.seen) (w := w) r rfl
  unfold fate at h
  rcases hx : examine w r with ⟨reason' | s, r'⟩ | ⟨e, r'⟩ <;> rw [hx] at h hfound
  · cases h
  · exact hfound
  · cases h

/-- Events lead from the first runner to the second. -/
def Precedes (r r' : Runner κ σ) : Prop := ∃ told, Leads r.seen told r'.seen

variable {r r' r'' : Runner κ σ}

theorem Precedes.refl (r : Runner κ σ) : Precedes r r := ⟨[], .refl _⟩

theorem Precedes.trans (h : Precedes r r') (h' : Precedes r' r'') : Precedes r r'' := by
  obtain ⟨told, h⟩ := h
  obtain ⟨told', h'⟩ := h'
  exact ⟨told ++ told', h.trans h'⟩

theorem Precedes.root_eq (h : Precedes r r') : r'.root = r.root := by
  obtain ⟨told, h⟩ := h
  exact h.root_eq

/-- A reason to drop elements for a window lasts, though it may become another one. -/
theorem Precedes.keeps_dropReason (ht : t.Customs OwnNode) (hroot : r.root = .root t)
    (h : Precedes r r') (hw : r.seen.dropReason? w ≠ none) : r'.seen.dropReason? w ≠ none := by
  obtain ⟨told, es, hes, -⟩ := h
  exact (hes.keeps (J := fun v => v.root = .root t ∧ v.dropReason? w ≠ none)
    (fun _ ho hv => ⟨ho.root_eq.trans hv.1, ho.keeps_dropReason ht hv.1 hv.2⟩) ⟨hroot, hw⟩).2

/-- The visits of an element come one after the other, all between its start and its end. -/
theorem visitsFrom_between (assigned : List Window) (at' : Timestamp) :
    ∀ (ws : List Window) (r : Runner κ σ), Precedes r (delivered assigned at' ws r) ∧
      (∀ x ∈ visitsFrom assigned at' r ws,
        Precedes r x.1 ∧ Precedes x.1 (delivered assigned at' ws r)) ∧
      (visitsFrom assigned at' r ws).Pairwise fun x y => Precedes x.1 y.1
  | [], r => ⟨.refl r, fun _ h => (List.not_mem_nil h).elim, .nil⟩
  | w :: ws, r => by
    have hdeliver : Ensures (fun r₁ : Runner κ σ => Leads r.seen [] r₁.seen)
        (deliver assigned at' w) (fun _ r₁ => Leads r.seen [] r₁.seen)
        fun _ r₁ => Leads r.seen [] r₁.seen := deliver_leads
    cases hx : deliver assigned at' w r with
    | ok a r₁ =>
      have hstep : Precedes r r₁ := ⟨[], hdeliver.of_ok (.refl _) hx⟩
      obtain ⟨hend, hvisits, hpairs⟩ := visitsFrom_between assigned at' ws r₁
      rw [delivered_of_ok hx, visitsFrom_of_ok hx]
      refine ⟨hstep.trans hend, ?_, .cons (fun y hy => hstep.trans (hvisits y hy).1) hpairs⟩
      rintro x hm
      rcases List.mem_cons.1 hm with rfl | hm
      · exact ⟨.refl r, hstep.trans hend⟩
      · exact (hvisits x hm).imp_left hstep.trans
    | error e r₁ =>
      have hstep : Precedes r r₁ := ⟨[], hdeliver.of_error (.refl _) hx⟩
      rw [delivered_of_error hx, visitsFrom_of_error hx]
      refine ⟨hstep, ?_, List.pairwise_singleton _ _⟩
      intro x hm
      rw [List.mem_singleton.1 hm]
      exact ⟨.refl r, hstep⟩

theorem visitsOf_between (op : Operation) (r : Runner κ σ) :
    (∀ x ∈ r.visitsOf op, Precedes r x.1 ∧ Precedes x.1 (r.step op).2) ∧
      (r.visitsOf op).Pairwise fun x y => Precedes x.1 y.1 := by
  cases op with
  | element ws at' =>
    obtain ⟨-, hvisits, hpairs⟩ := visitsFrom_between ws at' ws r
    rw [step_element]
    exact ⟨hvisits, hpairs⟩
  | _ => exact ⟨fun _ h => (List.not_mem_nil h).elim, .nil⟩

theorem visits_ordered : ∀ {ops : List Operation}, (∀ op ∈ ops, op.Plain) → ∀ r : Runner κ σ,
    (∀ x ∈ r.visits ops, Precedes r x.1) ∧
      (r.visits ops).Pairwise fun x y => Precedes x.1 y.1
  | [], _, _ => ⟨fun _ h => (List.not_mem_nil h).elim, .nil⟩
  | op :: ops, hops, r => by
    obtain ⟨hhere, hpairs⟩ := visitsOf_between op r
    obtain ⟨told, hl, -⟩ := step_leads (hops op List.mem_cons_self) r
    have hstep : Precedes r (r.step op).2 := ⟨told, hl⟩
    obtain ⟨hlater, hpairs'⟩ := visits_ordered
      (fun o ho => hops o (List.mem_cons_of_mem _ ho)) (r.step op).2
    refine ⟨fun x hx => ?_, List.pairwise_append.2 ⟨hpairs, hpairs', fun x hx y hy =>
      (hhere x hx).2.trans (hlater y hy)⟩⟩
    rcases List.mem_append.1 hx with hx | hx
    · exact (hhere x hx).1
    · exact hstep.trans (hlater x hx)

/-- A window for which an element was dropped hands none to the tree any more. -/
theorem dropped_for_good (ht : t.Customs OwnNode) (cfg : RunnerConfig) (store : σ)
    {ops : List Operation} (hops : ∀ op ∈ ops, op.Plain) {w : Window} {reason : DropReason}
    {before after : List (Window × Fate)}
    (hdrop : (start t cfg store).fates ops = before ++ (w, .dropped reason) :: after) :
    (w, .handed) ∉ after := by
  obtain ⟨hstart, hpairs⟩ := visits_ordered hops (start t cfg store)
  obtain ⟨xs, rest, hvisits, -, hrest⟩ := List.map_eq_append_iff.1 hdrop
  obtain ⟨⟨r, u⟩, ys, rfl, hx, rfl⟩ := List.map_eq_cons_iff.1 hrest
  obtain rfl : u = w := congrArg Prod.fst hx
  have hdropped : r.fate u = .dropped reason := congrArg Prod.snd hx
  rw [hvisits] at hstart hpairs
  intro hm
  obtain ⟨⟨r', u'⟩, hy, hmap⟩ := List.mem_map.1 hm
  obtain rfl : u' = u := congrArg Prod.fst hmap
  have hhanded : r'.fate u' = .handed := congrArg Prod.snd hmap
  have hprecedes : Precedes r r' :=
    (List.pairwise_cons.1 (List.pairwise_append.1 hpairs).2.1).1 _ hy
  have hroot : r.root = .root t :=
    (hstart _ (List.mem_append_right xs List.mem_cons_self)).root_eq
  refine hprecedes.keeps_dropReason ht hroot ?_ (dropReason_of_handed hhanded)
  rw [dropReason_of_dropped hdropped]
  exact Option.some_ne_none reason

/-- The window closes with its first element. Its firing fails, and so does the collection in which
its state goes. Then an element is late for it, and the last one fails before it comes to it. -/
theorem dropped_for_good_despite_faults :
    let k : ScriptedTrigger :=
      { finishOnElement := true
        guaranteeOffset := some 0
        failures := [(.onOnlyFiring, .unsupported)] }
    let a : Window := ⟨.clamp 0, .clamp 10⟩
    let b : Window := ⟨.clamp 0, .clamp 20⟩
    let c : Window := ⟨.clamp 30, .clamp 60⟩
    let store : FaultyStore := { faults := { load := [c], discard := [b] } }
    let ops : List Operation := [.element [a, b] (.clamp 3), .element [a] (.clamp 4), .fire a,
      .advance (.clamp 40), .collect, .element [a] (.clamp 5), .element [c, a] (.clamp 32)]
    let after : List (Window × Fate) := [(a, .dropped .pastAllowedLateness), (c, .unread)]
    (start (.once (.custom k)) { allowedLateness := 5 } store).fates ops =
        [(a, .handed), (b, .handed)] ++ (a, .dropped .windowClosed) :: after ∧
      (a, .handed) ∉ after := by
  intro k a b c store ops after
  have hown : (Trigger.once (.custom k)).Customs OwnNode := ScriptedTrigger.ownNode
  have hops : ∀ op ∈ ops, op.Plain := by simp [ops, Operation.Plain]
  have hfates : (start (.once (.custom k)) { allowedLateness := 5 } store).fates ops =
      [(a, .handed), (b, .handed)] ++ (a, .dropped .windowClosed) :: after := by
    decide +kernel
  exact ⟨hfates, dropped_for_good hown { allowedLateness := 5 } store hops hfates⟩

end Runs

end Runner

end PaneTriggers
