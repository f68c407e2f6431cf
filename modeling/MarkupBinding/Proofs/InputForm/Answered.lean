import MarkupBinding.InputForm.Fields

/-!
# What a drawing comes to

`Drawing.answered` is what a drawing comes to for what the user has entered: its result and its
state. Drawings one below the other come to one after the other (`Drawing.answered_bind`), and what
only shows something comes to nothing. A drawing has a result exactly if all its parts have
(`Drawing.answered_bind_eq_ok_iff`, `Drawing.answered_map_eq_ok_iff`,
`Drawing.answered_both_eq_ok_iff`). Many drawings leave the state as it is (`Drawing.IsStill`).
-/

set_option autoImplicit false
set_option relaxedAutoImplicit false

namespace MarkupBinding.InputForm.Drawing

variable {σ α β γ : Type} {answers : Answers} {d : Drawing σ α} {s after : σ}

/-- The result and the state that a drawing comes to. -/
def answered (answers : Answers) (d : Drawing σ α) (s : σ) : Except Interruption α × σ :=
  ((d answers s).result, (d answers s).state)

@[simp] theorem answered_pure (value : α) :
    (pure value : Drawing σ α).answered answers s = (.ok value, s) := rfl

/-- A drawing below another one goes on with its value and its state, unless it was cut short. -/
@[simp] theorem answered_bind (d : Drawing σ α) (next : α → Drawing σ β) :
    (d >>= next).answered answers s =
      match d.answered answers s with
      | (.ok value, t) => (next value).answered answers t
      | (.error interruption, t) => (.error interruption, t) := by
  cases h : (d answers s).result with
  | ok value => simp only [answered, bind_apply_of_ok h, h]
  | error interruption => simp only [answered, bind_apply_of_error h, h]

@[simp] theorem answered_map (f : α → β) (d : Drawing σ α) :
    (f <$> d).answered answers s =
      ((d.answered answers s).1.map f, (d.answered answers s).2) := by
  rw [← bind_pure_comp, answered_bind]
  cases h : d.answered answers s with
  | mk result after => cases result <;> rfl

@[simp] theorem answered_draw (thing : Drawn) :
    (draw thing : Drawing σ Unit).answered answers s = (.ok (), s) := rfl

@[simp] theorem answered_say (tone : Tone) (text : String) :
    (say tone text : Drawing σ Unit).answered answers s = (.ok (), s) := rfl

@[simp] theorem answered_state : (state : Drawing σ σ).answered answers s = (.ok s, s) := rfl

@[simp] theorem answered_change (f : σ → σ) :
    (change f).answered answers s = (.ok (), f s) := rfl

@[simp] theorem answered_interrupt (interruption : Interruption) :
    (interrupt interruption : Drawing σ α).answered answers s = (.error interruption, s) := rfl

@[simp] theorem answered_fail (fault : DrawingFault) :
    (fail fault : Drawing σ α).answered answers s = (.error (.fault fault), s) := rfl

/-- Nothing is drawn below a fault. -/
theorem fail_bind (fault : DrawingFault) (next : α → Drawing σ β) :
    (fail fault : Drawing σ α) >>= next = fail fault := rfl

@[simp] theorem answered_demand_some (fault : DrawingFault) (value : α) :
    (demand fault (some value) : Drawing σ α).answered answers s = (.ok value, s) := rfl

@[simp] theorem answered_demand_none (fault : DrawingFault) :
    (demand fault none : Drawing σ α).answered answers s = (.error (.fault fault), s) := rfl

@[simp] theorem answered_textField (label value key : String) :
    (textField label value key).answered answers s =
      (.ok ((answers.texts.lookup key).getD value), s) := rfl

@[simp] theorem answered_checkbox (label : String) (value : Bool) (key : String) :
    (checkbox label value key).answered answers s = (.ok (answers.box key value), s) := rfl

@[simp] theorem answered_heeding (heed : σ → Answers → Answers) (d : Drawing σ α) :
    (d.heeding heed).answered answers s = d.answered (heed s answers) s := rfl

@[simp] theorem answered_button (label key : String) (disabled : Bool) :
    (button label key disabled).answered answers s =
      (.ok (!disabled && (answers.ticks.lookup key).getD false), s) := rfl

/-- Drawings one below the other have a result if the first one has one and the second one has one
for it. -/
theorem answered_bind_eq_ok_iff {next : α → Drawing σ β} {result : β} :
    (d >>= next).answered answers s = (.ok result, after) ↔
      ∃ value middle, d.answered answers s = (.ok value, middle) ∧
        (next value).answered answers middle = (.ok result, after) := by
  rw [answered_bind]
  constructor
  · intro h
    split at h
    · next value middle hvalue => exact ⟨value, middle, hvalue, h⟩
    · cases h
  · rintro ⟨value, middle, hvalue, hnext⟩
    rw [hvalue]
    exact hnext

/-- What is made of a drawing's value is there if the value is. -/
theorem answered_map_eq_ok_iff {f : α → β} {result : β} :
    (f <$> d).answered answers s = (.ok result, after) ↔
      ∃ value, d.answered answers s = (.ok value, after) ∧ f value = result := by
  rw [← bind_pure_comp, answered_bind_eq_ok_iff]
  constructor
  · rintro ⟨value, middle, hvalue, hresult⟩
    rw [answered_pure, Prod.mk.injEq, Except.ok.injEq] at hresult
    obtain ⟨hresult, rfl⟩ := hresult
    exact ⟨value, hvalue, hresult⟩
  · rintro ⟨value, hvalue, rfl⟩
    exact ⟨value, after, hvalue, rfl⟩

/-- What is made of the values of two drawings, one below the other, is there if both values are. -/
theorem answered_both_eq_ok_iff {b : Drawing σ β} {f : α → β → γ} {result : γ} :
    (do let first ← d
        let second ← b
        pure (f first second)).answered answers s = (.ok result, after) ↔
      ∃ first middle second, d.answered answers s = (.ok first, middle) ∧
        b.answered answers middle = (.ok second, after) ∧ f first second = result := by
  simp only [answered_bind_eq_ok_iff (d := d), bind_pure_comp, answered_map_eq_ok_iff,
    exists_and_left]

/-- Drawings one below the other are as two others for other answers, if each of them is. -/
theorem bind_congr {others : Answers} {d' : Drawing σ α} {next next' : α → Drawing σ β}
    (hd : d' others s = d answers s)
    (hnext : ∀ value, next' value others (d answers s).state =
      next value answers (d answers s).state) :
    (d' >>= next') others s = (d >>= next) answers s := by
  change Drawing.bind d' next' others s = Drawing.bind d next answers s
  simp only [Drawing.bind, hd, hnext]

/-- The drawing leaves the state as it is. -/
def IsStill (d : Drawing σ α) : Prop :=
  ∀ answers s, (d.answered answers s).2 = s

theorem isStill_say (tone : Tone) (text : String) : (say tone text : Drawing σ Unit).IsStill :=
  fun _ _ ↦ rfl

theorem isStill_draw (thing : Drawn) : (draw thing : Drawing σ Unit).IsStill :=
  fun _ _ ↦ rfl

end MarkupBinding.InputForm.Drawing
