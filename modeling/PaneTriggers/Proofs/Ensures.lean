import Mathlib.Tactic.Common

/-!
# What steps with state and failure ensure

`Ensures P act Q E`: started in a state with `P`, `act` either returns and leaves `Q`, or fails and
leaves `E`. Both endings are told apart because a step that fails keeps what it did before. With
`E` false the step never fails. `Matches R x y S` is about two runs side by side: from states that
`R` relates, both return, with the same result and in states that `S` relates. `InStep R x y V` is
about two runs that may fail, and that `R` relates all the way.
-/

namespace PaneTriggers

variable {ε σ τ α β : Type}

/-- From a state with `P`, `act` returns into `Q` or fails into `E`. -/
def Ensures (P : σ → Prop) (act : EStateM ε σ α) (Q : α → σ → Prop) (E : ε → σ → Prop) : Prop :=
  ∀ s, P s → match act s with
    | .ok a s' => Q a s'
    | .error e s' => E e s'

theorem bind_of_ok {x : EStateM ε σ α} {f : α → EStateM ε σ β} {s s' : σ} {a : α}
    (h : x s = .ok a s') : (x >>= f) s = f a s' := by
  show EStateM.bind x f s = f a s'
  unfold EStateM.bind
  rw [h]

theorem bind_of_error {x : EStateM ε σ α} {f : α → EStateM ε σ β} {s s' : σ} {e : ε}
    (h : x s = .error e s') : (x >>= f) s = .error e s' := by
  show EStateM.bind x f s = .error e s'
  unfold EStateM.bind
  rw [h]

/-- Steps in turn that fail do so at one of them, after those before it have returned. -/
theorem forM_of_error {f : β → EStateM ε σ PUnit} {e : ε} {s' : σ} :
    ∀ {l : List β} {s : σ}, l.forM f s = .error e s' → ∃ before b after s₁,
      l = before ++ b :: after ∧ before.forM f s = .ok ⟨⟩ s₁ ∧ f b s₁ = .error e s'
  | [], _, h => by cases h
  | b :: l, s, h => by
    cases hb : f b s with
    | ok _ s₁ =>
      have hrest : (b :: l).forM f s = l.forM f s₁ := bind_of_ok hb
      rw [hrest] at h
      obtain ⟨before, c, after, s₂, rfl, hbefore, hc⟩ := forM_of_error h
      exact ⟨b :: before, c, after, s₂, rfl, (bind_of_ok hb).trans hbefore, hc⟩
    | error e' s₁ =>
      have hend : (b :: l).forM f s = .error e' s₁ := bind_of_error hb
      rw [hend] at h
      cases h
      exact ⟨[], b, l, s, rfl, rfl, hb⟩

namespace Ensures

variable {P P' : σ → Prop} {Q Q' : α → σ → Prop} {R : β → σ → Prop} {E E' : ε → σ → Prop}
  {x : EStateM ε σ α}

theorem bind {f : α → EStateM ε σ β} (hx : Ensures P x Q E)
    (hf : ∀ a, Ensures (Q a) (f a) R E) : Ensures P (x >>= f) R E := by
  intro s hs
  have h := hx s hs
  cases hxs : x s with
  | ok a s' =>
    rw [hxs] at h
    rw [bind_of_ok hxs]
    exact hf a s' h
  | error e s' =>
    rw [hxs] at h
    rw [bind_of_error hxs]
    exact h

theorem pure {a : α} (h : ∀ s, P s → Q a s) : Ensures P (Pure.pure a : EStateM ε σ α) Q E := h

theorem throw {e : ε} (h : ∀ s, P s → E e s) : Ensures P (throw e : EStateM ε σ α) Q E := h

theorem get {Q : σ → σ → Prop} (h : ∀ s, P s → Q s s) :
    Ensures P (MonadState.get : EStateM ε σ σ) Q E := h

theorem modify {f : σ → σ} {Q : Unit → σ → Prop} (h : ∀ s, P s → Q () (f s)) :
    Ensures P (modify f : EStateM ε σ Unit) Q E := h

theorem set {t : σ} {Q : PUnit → σ → Prop} (h : ∀ s, P s → Q ⟨⟩ t) :
    Ensures P (set t : EStateM ε σ PUnit) Q E := h

theorem ite {b : Prop} [Decidable b] {y : EStateM ε σ α} (hx : b → Ensures P x Q E)
    (hy : ¬b → Ensures P y Q E) : Ensures P (if b then x else y) Q E := by
  split_ifs with h
  · exact hx h
  · exact hy h

/-- What is ensured of the result that `f` makes. -/
theorem map {f : α → β} (h : Ensures P x (fun a => R (f a)) E) :
    Ensures P (do return f (← x)) R E :=
  bind h fun _ => pure fun _ h => h

theorem mono (h : Ensures P x Q E) (hP : ∀ s, P' s → P s) (hQ : ∀ a s, Q a s → Q' a s)
    (hE : ∀ e s, E e s → E' e s) : Ensures P' x Q' E' := by
  intro s hs
  have := h s (hP s hs)
  revert this
  cases x s with
  | ok a s' => exact hQ a s'
  | error e s' => exact hE e s'

theorem onReturn (h : Ensures P x Q E) (hQ : ∀ a s, Q a s → Q' a s) : Ensures P x Q' E :=
  h.mono (fun _ h => h) hQ fun _ _ h => h

theorem onFail (h : Ensures P x Q E) (hE : ∀ e s, E e s → E' e s) : Ensures P x Q E' :=
  h.mono (fun _ h => h) (fun _ _ h => h) hE

theorem both (h : Ensures P x Q E) (h' : Ensures P' x Q' E') : Ensures (fun s => P s ∧ P' s) x
    (fun a s => Q a s ∧ Q' a s) fun e s => E e s ∧ E' e s := by
  intro s hs
  have h₁ := h s hs.1
  have h₂ := h' s hs.2
  revert h₁ h₂
  cases x s with
  | ok a s' => exact fun h₁ h₂ => ⟨h₁, h₂⟩
  | error e s' => exact fun h₁ h₂ => ⟨h₁, h₂⟩

theorem and (h : Ensures P x Q E) (h' : Ensures P x Q' E') :
    Ensures P x (fun a s => Q a s ∧ Q' a s) fun e s => E e s ∧ E' e s :=
  (h.both h').mono (fun _ hs => ⟨hs, hs⟩) (fun _ _ h => h) fun _ _ h => h

/-- What holds from each value that `f` may have holds from all states. -/
theorem of_each {γ : Type} {f : σ → γ} {G : γ → Prop}
    (h : ∀ c, G c → Ensures (fun s => f s = c) x Q E) : Ensures (fun s => G (f s)) x Q E :=
  fun s hs => h (f s) hs s rfl

theorem of_fact {f : Prop} (h : f → Ensures P x Q E) : Ensures (fun s => f ∧ P s) x Q E :=
  fun s hs => h hs.1 s hs.2

theorem returns (h : Ensures P x Q E) (hE : ∀ e t, ¬E e t) {s : σ} (hs : P s) :
    ∃ a s', x s = .ok a s' ∧ Q a s' := by
  have h := h s hs
  cases hx : x s with
  | ok a s' => rw [hx] at h; exact ⟨a, s', rfl, h⟩
  | error e s' => rw [hx] at h; exact (hE e s' h).elim

theorem of_ok (h : Ensures P x Q E) {s s' : σ} {a : α} (hs : P s) (hx : x s = .ok a s') :
    Q a s' := by
  have h := h s hs
  rwa [hx] at h

theorem of_error (h : Ensures P x Q E) {s s' : σ} {e : ε} (hs : P s) (hx : x s = .error e s') :
    E e s' := by
  have h := h s hs
  rwa [hx] at h

/-- Steps in turn that each move along an abstract state move along it in turn. -/
theorem forM_foldl {γ : Type} {J : γ → σ → Prop} {f : β → EStateM ε σ PUnit} {g : γ → β → γ}
    (h : ∀ c b, Ensures (J c) (f b) (fun _ => J (g c b)) E) :
    ∀ (l : List β) (c : γ), Ensures (J c) (l.forM f) (fun _ => J (l.foldl g c)) E
  | [], _ => pure fun _ h => h
  | b :: l, c => bind (h c b) fun _ => forM_foldl h l (g c b)

theorem forM {P : σ → Prop} {f : β → EStateM ε σ PUnit} :
    ∀ {l : List β}, (∀ b ∈ l, Ensures P (f b) (fun _ => P) E) →
      Ensures P (l.forM f) (fun _ => P) E
  | [], _ => pure fun _ h => h
  | b :: _, h => bind (h b List.mem_cons_self) fun _ =>
      forM fun b hb => h b (List.mem_cons_of_mem _ hb)

end Ensures

/-- From states that `R` relates, `x` and `y` return the same into states that `S` relates. -/
def Matches (R : σ → τ → Prop) (x : EStateM ε σ α) (y : EStateM ε τ α) (S : σ → τ → Prop) : Prop :=
  ∀ s t, R s t → ∃ a s' t', x s = .ok a s' ∧ y t = .ok a t' ∧ S s' t'

namespace Matches

variable {R S T : σ → τ → Prop} {x : EStateM ε σ α} {y : EStateM ε τ α}

theorem bind {f : α → EStateM ε σ β} {g : α → EStateM ε τ β} (h : Matches R x y S)
    (hf : ∀ a, Matches S (f a) (g a) T) : Matches R (x >>= f) (y >>= g) T := by
  intro s t hst
  obtain ⟨a, s', t', hx, hy, hS⟩ := h s t hst
  rw [bind_of_ok hx, bind_of_ok hy]
  exact hf a s' t' hS

theorem pure {a : α} : Matches R (Pure.pure a : EStateM ε σ α) (Pure.pure a : EStateM ε τ α) R :=
  fun s t h => ⟨a, s, t, rfl, rfl, h⟩

theorem forM {f : β → EStateM ε σ PUnit} {g : β → EStateM ε τ PUnit}
    (h : ∀ b, Matches R (f b) (g b) R) : ∀ l : List β, Matches R (l.forM f) (l.forM g) R
  | [] => pure
  | b :: l => bind (h b) fun _ => forM h l

end Matches

/-- From states that `R` relates, `x` and `y` both return, with results that `V` relates, or both
fail with the same error, into states that `R` relates again. -/
def InStep (R : σ → τ → Prop) (x : EStateM ε σ α) (y : EStateM ε τ β) (V : α → β → Prop) : Prop :=
  ∀ s t, R s t → match x s, y t with
    | .ok a s', .ok b t' => V a b ∧ R s' t'
    | .error e s', .error e' t' => e = e' ∧ R s' t'
    | _, _ => False

namespace InStep

variable {γ δ : Type} {R : σ → τ → Prop} {V V' : α → β → Prop} {W : γ → δ → Prop}
  {x : EStateM ε σ α} {y : EStateM ε τ β}

theorem bind {f : α → EStateM ε σ γ} {g : β → EStateM ε τ δ} (h : InStep R x y V)
    (hf : ∀ a b, V a b → InStep R (f a) (g b) W) : InStep R (x >>= f) (y >>= g) W := by
  intro s t hst
  have h := h s t hst
  rcases hx : x s with ⟨a, s'⟩ | ⟨e, s'⟩ <;> rcases hy : y t with ⟨b, t'⟩ | ⟨e', t'⟩ <;>
    rw [hx, hy] at h
  · rw [bind_of_ok hx, bind_of_ok hy]
    exact hf a b h.1 s' t' h.2
  · exact h.elim
  · exact h.elim
  · rw [bind_of_error hx, bind_of_error hy]
    exact h

theorem pure {a : α} {b : β} (h : V a b) :
    InStep R (Pure.pure a : EStateM ε σ α) (Pure.pure b : EStateM ε τ β) V :=
  fun _ _ hst => ⟨h, hst⟩

theorem bind_eq {y : EStateM ε τ α} {f : α → EStateM ε σ γ} {g : α → EStateM ε τ δ}
    (h : InStep R x y Eq) (hf : ∀ a, InStep R (f a) (g a) W) :
    InStep R (x >>= f) (y >>= g) W := by
  refine bind h ?_
  rintro a _ rfl
  exact hf a

theorem throw {e : ε} : InStep R (throw e : EStateM ε σ α) (throw e : EStateM ε τ β) V :=
  fun _ _ hst => ⟨rfl, hst⟩

theorem get : InStep R (MonadState.get : EStateM ε σ σ) (MonadState.get : EStateM ε τ τ) R :=
  fun _ _ hst => ⟨hst, hst⟩

theorem modify {f : σ → σ} {g : τ → τ} (h : ∀ s t, R s t → R (f s) (g t)) :
    InStep R (modify f : EStateM ε σ Unit) (modify g : EStateM ε τ Unit) Eq :=
  fun s t hst => ⟨rfl, h s t hst⟩

theorem set {s' : σ} {t' : τ} (h : R s' t') :
    InStep R (set s' : EStateM ε σ PUnit) (set t' : EStateM ε τ PUnit) Eq :=
  fun _ _ _ => ⟨rfl, h⟩

theorem ite {b c : Prop} [Decidable b] [Decidable c] {x' : EStateM ε σ α} {y' : EStateM ε τ β}
    (hbc : b ↔ c) (h : InStep R x y V) (h' : InStep R x' y' V) :
    InStep R (if b then x else x') (if c then y else y') V := by
  by_cases hb : b
  · rwa [if_pos hb, if_pos (hbc.1 hb)]
  · rwa [if_neg hb, if_neg fun hc => hb (hbc.2 hc)]

theorem forM {f : γ → EStateM ε σ PUnit} {g : γ → EStateM ε τ PUnit} :
    ∀ {l : List γ}, (∀ c ∈ l, InStep R (f c) (g c) Eq) → InStep R (l.forM f) (l.forM g) Eq
  | [], _ => pure rfl
  | c :: _, h => bind (h c List.mem_cons_self) fun _ _ _ =>
      forM fun c hc => h c (List.mem_cons_of_mem _ hc)

end InStep

end PaneTriggers
