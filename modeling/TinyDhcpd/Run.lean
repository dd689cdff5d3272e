import Mathlib.Data.List.Infix

/-!
Runs of a machine that takes one event a step.

The events come from outside, so a run is a list of them. A condition on single steps, on
the state before the step and the event, is lifted to whole runs by `Meets`; the rules below
turn what one step does into what every run does.
-/

namespace TinyDhcpd.Run

variable {σ ε ω : Type*} (step : σ → ε → σ)

/-- The state after a list of events. -/
def run (s : σ) (es : List ε) : σ := es.foldl step s

@[simp] lemma run_nil (s : σ) : run step s [] = s := rfl
@[simp] lemma run_cons (s : σ) (e : ε) (es : List ε) :
    run step s (e :: es) = run step (step s e) es := rfl
lemma run_append (s : σ) (es fs : List ε) :
    run step s (es ++ fs) = run step (run step s es) fs := by
  simp [run, List.foldl_append]

/-- Every step of the run meets the condition in the state it is taken in. -/
def Meets (ok : σ → ε → Prop) : σ → List ε → Prop
  | _, [] => True
  | s, e :: es => ok s e ∧ Meets ok (step s e) es

instance decidableMeets (ok : σ → ε → Prop) [∀ s e, Decidable (ok s e)] :
    ∀ (s : σ) (es : List ε), Decidable (Meets step ok s es)
  | _, [] => .isTrue trivial
  | s, e :: es =>
    have := decidableMeets ok (step s e) es
    inferInstanceAs (Decidable (ok s e ∧ Meets step ok (step s e) es))

/-- What the steps of a run put out, in order. -/
def outs (out : σ → ε → ω) : σ → List ε → List ω
  | _, [] => []
  | s, e :: es => out s e :: outs out (step s e) es

variable {step}

lemma meets_append {ok : σ → ε → Prop} {s : σ} {es fs : List ε} :
    Meets step ok s (es ++ fs) ↔ Meets step ok s es ∧ Meets step ok (run step s es) fs := by
  induction es generalizing s with
  | nil => simp [Meets]
  | cons e es ih => simp only [List.cons_append, Meets, ih, run_cons, and_assoc]

lemma outs_append (out : σ → ε → ω) (s : σ) (es fs : List ε) :
    outs step out s (es ++ fs) = outs step out s es ++ outs step out (run step s es) fs := by
  induction es generalizing s with
  | nil => rfl
  | cons e es ih => simp only [List.cons_append, outs, ih, run_cons]

lemma map_outs {ω' : Type*} (f : ω → ω') (out : σ → ε → ω) (s : σ) (es : List ε) :
    (outs step out s es).map f = outs step (fun s e => f (out s e)) s es := by
  induction es generalizing s with
  | nil => rfl
  | cons e es ih => rw [outs, outs, List.map_cons, ih]

lemma exists_of_mem_outs {out : σ → ε → ω} {s : σ} {es : List ε} {o : ω}
    (h : o ∈ outs step out s es) : ∃ p e, p ++ [e] <+: es ∧ o = out (run step s p) e := by
  induction es generalizing s with
  | nil => cases h
  | cons e es ih =>
    rcases List.mem_cons.mp h with rfl | h
    · exact ⟨[], e, by simp, rfl⟩
    · obtain ⟨p, f, hp, ho⟩ := ih h
      exact ⟨e :: p, f, List.cons_prefix_cons.mpr ⟨rfl, hp⟩, ho⟩

lemma meets_and {ok ok' : σ → ε → Prop} {s : σ} {es : List ε} :
    Meets step (fun s e => ok s e ∧ ok' s e) s es ↔ Meets step ok s es ∧ Meets step ok' s es := by
  induction es generalizing s with
  | nil => simp [Meets]
  | cons e es ih => simp only [Meets, ih, and_and_and_comm]

lemma meets_of_forall {P : ε → Prop} {s : σ} {es : List ε} (h : ∀ e ∈ es, P e) :
    Meets step (fun _ e => P e) s es := by
  induction es generalizing s with
  | nil => trivial
  | cons e es ih => exact ⟨h e (by simp), ih fun x hx => h x (by simp [hx])⟩

lemma meets_true (s : σ) (es : List ε) : Meets step (fun _ _ => True) s es :=
  meets_of_forall fun _ _ => trivial

/-- **The rule of the last word.** Of the events that set a part of the state, the last one
decides about it. -/
theorem run_last {β : Type*} (part : σ → β) (sets : ε → Option β)
    (hstep : ∀ s e, part (step s e) = (sets e).getD (part s)) (s : σ) (es : List ε) :
    part (run step s es) = (es.filterMap sets).getLast?.getD (part s) := by
  induction es using List.reverseRecOn with
  | nil => rfl
  | append_singleton es e ih =>
    rw [run_append, List.filterMap_append, List.getLast?_append]
    show part (step (run step s es) e) = _
    rw [hstep, ih]
    cases h : sets e <;> simp [h]

/-- **The invariant rule.** What every step keeps, every run keeps. -/
theorem invariant {ok : σ → ε → Prop} {I : σ → Prop}
    (hstep : ∀ s e, I s → ok s e → I (step s e)) {s : σ} {es : List ε} (hs : I s)
    (h : Meets step ok s es) : I (run step s es) := by
  induction es generalizing s with
  | nil => exact hs
  | cons e es ih => exact ih (hstep s e hs h.1) h.2

/-- **The invariant rule with a history.** The invariant may speak about what the steps have
put out so far. -/
theorem invariant_outs {ok : σ → ε → Prop} (out : σ → ε → ω) {I : List ω → σ → Prop}
    (hstep : ∀ past s e, I past s → ok s e → I (past ++ [out s e]) (step s e)) {s : σ}
    {es : List ε} (hs : I [] s) (h : Meets step ok s es) :
    I (outs step out s es) (run step s es) := by
  have hall : ∀ (es : List ε) (past : List ω) (s : σ), I past s → Meets step ok s es →
      I (past ++ outs step out s es) (run step s es) := by
    intro es
    induction es with
    | nil => exact fun past s hs _ => by simpa [outs] using hs
    | cons e es ih =>
      intro past s hs h
      have hrest := ih (past ++ [out s e]) (step s e) (hstep past s e hs h.1) h.2
      rwa [List.append_assoc, List.singleton_append] at hrest
  exact hall es [] s hs h

/-- Along a run an invariant gives a second condition at every step. -/
theorem meets_of_invariant {ok P : σ → ε → Prop} {I : σ → Prop}
    (hstep : ∀ s e, I s → ok s e → I (step s e)) (hP : ∀ s e, I s → ok s e → P s e)
    {s : σ} {es : List ε} (hs : I s) (h : Meets step ok s es) : Meets step P s es := by
  induction es generalizing s with
  | nil => trivial
  | cons e es ih => exact ⟨hP s e hs h.1, ih (hstep s e hs h.1) h.2⟩

/-- **The exact rule with an invariant.** If, under an invariant, a step has the property
exactly when it meets `c`, and then keeps the invariant, then all steps of a run have the
property exactly when all meet `c`. -/
theorem meets_iff_of_invariant {ok P c : σ → ε → Prop} {I : σ → Prop}
    (hP : ∀ s e, I s → ok s e → (P s e ↔ c s e))
    (hI : ∀ s e, I s → ok s e → c s e → I (step s e)) {s : σ} {es : List ε} (hs : I s)
    (h : Meets step ok s es) : Meets step P s es ↔ Meets step c s es := by
  induction es generalizing s with
  | nil => exact Iff.rfl
  | cons e es ih =>
    refine (and_congr_left fun _ => hP s e hs h.1).trans (and_congr_right fun hc => ?_)
    exact ih (hI s e hs h.1 hc) h.2

theorem meets_congr {ok P c : σ → ε → Prop} (hstep : ∀ s e, ok s e → (P s e ↔ c s e))
    {s : σ} {es : List ε} (h : Meets step ok s es) : Meets step P s es ↔ Meets step c s es :=
  meets_iff_of_invariant (I := fun _ => True) (fun s e _ => hstep s e) (fun _ _ _ _ _ => trivial)
    trivial h

/-- **The exact invariant rule.** If a step from a good state leads to a good state exactly
when it meets `c`, then a run stays in good states exactly when all its steps meet `c`. -/
theorem invariant_iff {ok c : σ → ε → Prop} {I : σ → Prop}
    (hstep : ∀ s e, I s → ok s e → (I (step s e) ↔ c s e)) {s : σ} {es : List ε} (hs : I s)
    (h : Meets step ok s es) : (∀ p, p <+: es → I (run step s p)) ↔ Meets step c s es := by
  induction es generalizing s with
  | nil =>
    refine ⟨fun _ => trivial, fun _ p hp => ?_⟩
    rw [List.prefix_nil.mp hp]
    exact hs
  | cons e es ih =>
    constructor
    · intro hall
      have he : I (step s e) := hall [e] ⟨es, rfl⟩
      refine ⟨(hstep s e hs h.1).mp he, (ih he h.2).mp fun p hp => ?_⟩
      exact hall (e :: p) (List.cons_prefix_cons.mpr ⟨rfl, hp⟩)
    · intro hc p hp
      have he : I (step s e) := (hstep s e hs h.1).mpr hc.1
      cases p with
      | nil => exact hs
      | cons x p =>
        obtain ⟨rfl, hpre⟩ := List.cons_prefix_cons.mp hp
        exact (ih he h.2).mpr hc.2 p hpre

/-- **The variant rule.** If, under an invariant and short of the goal, steps that count lower a
measure and the others do not raise it, then the goal is met before more steps have counted
than the measure says. -/
theorem exists_prefix_of_variant {ok : σ → ε → Prop} {I G : σ → Prop} {c : ε → Bool}
    (μ : σ → ℕ) (hstep : ∀ s e, I s → ok s e → ¬ G s → G (step s e) ∨
      I (step s e) ∧ μ (step s e) + (if c e then 1 else 0) ≤ μ s) {s : σ} {es : List ε}
    (hs : I s) (h : Meets step ok s es) (hlen : μ s < es.countP c) :
    ∃ p, p <+: es ∧ G (run step s p) := by
  by_cases hg : G s
  · exact ⟨[], List.nil_prefix, hg⟩
  induction es generalizing s with
  | nil => simp at hlen
  | cons e es ih =>
    have lift {p : List ε} (hp : p <+: es) (h : G (run step (step s e) p)) :
        ∃ p, p <+: e :: es ∧ G (run step s p) :=
      ⟨e :: p, List.cons_prefix_cons.mpr ⟨rfl, hp⟩, h⟩
    by_cases hg' : G (step s e)
    · exact lift List.nil_prefix hg'
    obtain ⟨hI, hμ⟩ := (hstep s e hs h.1 hg).resolve_left hg'
    rw [List.countP_cons] at hlen
    obtain ⟨p, hp, h⟩ := ih hI h.2 (by omega) hg'
    exact lift hp h

/-- **The simulation rule.** Two runs on the same events stay related and put out the same. -/
theorem simulation {ok : σ → ε → Prop} {R : σ → σ → Prop} {out : σ → ε → ω}
    (hstep : ∀ s t e, R s t → ok s e → R (step s e) (step t e) ∧ out s e = out t e)
    {s t : σ} {es : List ε} (hst : R s t) (h : Meets step ok s es) :
    R (run step s es) (run step t es) ∧ outs step out s es = outs step out t es := by
  induction es generalizing s t with
  | nil => exact ⟨hst, rfl⟩
  | cons e es ih =>
    obtain ⟨hR, ho⟩ := hstep s t e hst h.1
    obtain ⟨hR', ho'⟩ := ih hR h.2
    exact ⟨hR', by rw [outs, outs, ho, ho']⟩

/-- **The lockstep rule.** Two machines that take related events stay related, and so do their
outputs. -/
theorem lockstep {σ' ε' ω' : Type*} {step' : σ' → ε' → σ'} {R : σ → σ' → Prop} {E : ε → ε' → Prop}
    {O : ω → ω' → Prop} {out : σ → ε → ω} {out' : σ' → ε' → ω'}
    (hstep : ∀ s t e f, R s t → E e f → R (step s e) (step' t f) ∧ O (out s e) (out' t f))
    {s : σ} {t : σ'} {es : List ε} {fs : List ε'} (hst : R s t) (h : List.Forall₂ E es fs) :
    R (run step s es) (run step' t fs) ∧
      List.Forall₂ O (outs step out s es) (outs step' out' t fs) := by
  induction h generalizing s t with
  | nil => exact ⟨hst, .nil⟩
  | cons he _ ih =>
    obtain ⟨hR, hO⟩ := hstep _ _ _ _ hst he
    obtain ⟨hR', hO'⟩ := ih hR
    exact ⟨hR', .cons hO hO'⟩

/-- **The refinement rule.** If every step of a machine is a run of another one, on the events
it stands for and with the same outputs, then so is every run. -/
theorem refinement {σ' ε' : Type*} {step' : σ' → ε' → σ'} {ok : σ → ε → Prop}
    {R : σ → σ' → Prop} {means : σ → ε → List ε'} {out : σ → ε → List ω}
    {out' : σ' → ε' → List ω}
    (hstep : ∀ s t e, R s t → ok s e → R (step s e) (run step' t (means s e)) ∧
      out s e = (outs step' out' t (means s e)).flatten)
    {s : σ} {t : σ'} {es : List ε} (hst : R s t) (h : Meets step ok s es) :
    R (run step s es) (run step' t (outs step means s es).flatten) ∧
      (outs step out s es).flatten =
        (outs step' out' t (outs step means s es).flatten).flatten := by
  induction es generalizing s t with
  | nil => exact ⟨hst, rfl⟩
  | cons e es ih =>
    obtain ⟨hR, ho⟩ := hstep s t e hst h.1
    obtain ⟨hR', ho'⟩ := ih hR h.2
    simp only [outs, List.flatten_cons, run_append, outs_append, run_cons, List.flatten_append]
    exact ⟨hR', by rw [ho, ho']⟩

/-- The run that refines another one meets what its steps meet. -/
theorem refinement_meets {σ' ε' : Type*} {step' : σ' → ε' → σ'} {ok : σ → ε → Prop}
    {ok' : σ' → ε' → Prop} {R : σ → σ' → Prop} {means : σ → ε → List ε'}
    (hstep : ∀ s t e, R s t → ok s e → R (step s e) (run step' t (means s e)) ∧
      Meets step' ok' t (means s e))
    {s : σ} {t : σ'} {es : List ε} (hst : R s t) (h : Meets step ok s es) :
    Meets step' ok' t (outs step means s es).flatten := by
  induction es generalizing s t with
  | nil => trivial
  | cons e es ih =>
    obtain ⟨hR, hm⟩ := hstep s t e hst h.1
    rw [outs, List.flatten_cons, meets_append]
    exact ⟨hm, ih hR h.2⟩

end TinyDhcpd.Run
