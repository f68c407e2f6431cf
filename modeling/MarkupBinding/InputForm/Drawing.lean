import MarkupBinding.Keyed
import MarkupBinding.Value.Basic

/-!
# Drawings

A page is drawn from top to bottom, and each control on it answers at once with what the user has
entered. A drawing changes a state on the way and may be cut short: a pressed control can ask for
the page to be drawn anew, and a fault ends it. What was drawn and changed before that stays.

Assumed of the toolkit that draws: a control answers what is held under its key, in the way it is
held, and its default where nothing is (`Answers`); a disabled button is never pressed; controls do
not change the state. What the state holds and what controls hold are two things here. A toolkit
with one table for both keeps this as long as no key is used for both, and
`InputForm.SessionState` says what it does otherwise.

`Drawing.bind` puts drawings one below the other, and `Drawing.on` draws with a part of a larger
state. Drawings form a lawful monad, so that how they are grouped makes no difference.
-/

set_option autoImplicit false
set_option relaxedAutoImplicit false

namespace MarkupBinding.InputForm

/-- The tones in which a page says something. -/
inductive Tone where
  | markdown
  | caption
  | subheader
  | title
  | success
  | error
  | info
  deriving DecidableEq, Repr

/-- One thing on a page. Controls are told apart by their keys. -/
inductive Drawn where
  | remark (tone : Tone) (text : String)
  | divider
  | container
  | expander (label : String)
  | textField (label value key : String)
  | checkbox (label : String) (value : Bool) (key : String)
  | choice (label : String) (options : List String)
  | button (label key : String) (disabled : Bool)
  | json (value : Value)
  | markup (text : String)
  deriving Repr

/-- The key of a control. -/
def Drawn.key? : Drawn → Option String
  | textField _ _ key => some key
  | checkbox _ _ key => some key
  | button _ key _ => some key
  | _ => none

/-- What the user has entered: texts, and ticked boxes and pressed buttons, by key. -/
structure Answers where
  texts : List (String × String)
  ticks : List (String × Bool)
  /-- Numbers that are held under keys of boxes. -/
  numbers : List (String × Int)
  deriving DecidableEq, Repr

namespace Answers

/-- The user has entered nothing. -/
def none : Answers := ⟨[], [], []⟩

/-- What a box answers: a number that is held for it, else whether it is ticked. -/
def box (answers : Answers) (key : String) (value : Bool) : Value :=
  match answers.numbers.lookup key with
  | some n => .int n
  | Option.none => .bool ((answers.ticks.lookup key).getD value)

end Answers

/-- Why a drawing cannot go on. -/
inductive DrawingFault where
  /-- A value is asked for an entry and is not an object. -/
  | notObject
  /-- A value is asked for its length, its items or its names and has none. -/
  | notCountable
  /-- An object is asked for an entry by a number. -/
  | noItem (index : Nat)
  /-- A schema document has no entry. -/
  | noComponent
  /-- The address of a request holds a control character. -/
  | badAddress
  /-- The body of a response is not JSON. -/
  | notJson
  /-- The body of a response holds a number that is too long. -/
  | hugeNumber
  deriving DecidableEq, Repr

/-- What cuts a drawing short. -/
inductive Interruption where
  | rerun
  | stop
  | fault (fault : DrawingFault)
  deriving DecidableEq, Repr

/-- What became of a drawing: the state afterwards, what was drawn in order, and the result. -/
structure Outcome (σ α : Type) where
  state : σ
  drawn : List Drawn
  result : Except Interruption α

/-- A drawing that reads the user's answers and changes a state. -/
def Drawing (σ α : Type) : Type :=
  Answers → σ → Outcome σ α

namespace Drawing

variable {σ τ α β : Type}

/-- Draws nothing. -/
protected def pure (value : α) : Drawing σ α :=
  fun _ s ↦ ⟨s, [], .ok value⟩

/-- Goes on below a drawing with its value, unless it was cut short. -/
protected def bind (d : Drawing σ α) (next : α → Drawing σ β) : Drawing σ β :=
  fun answers s ↦
    let first := d answers s
    match first.result with
    | .error interruption => ⟨first.state, first.drawn, .error interruption⟩
    | .ok value =>
      let second := next value answers first.state
      ⟨second.state, first.drawn ++ second.drawn, second.result⟩

instance : Monad (Drawing σ) where
  pure := Drawing.pure
  bind := Drawing.bind

/-- A drawing of nothing leaves the state. -/
@[simp] theorem pure_apply (value : α) (answers : Answers) (s : σ) :
    (pure value : Drawing σ α) answers s = ⟨s, [], .ok value⟩ := rfl

/-- Below a drawing with a value comes what is drawn for that value. -/
theorem bind_apply_of_ok {d : Drawing σ α} {next : α → Drawing σ β} {answers : Answers} {s : σ}
    {value : α} (h : (d answers s).result = .ok value) :
    (d >>= next) answers s =
      ⟨(next value answers (d answers s).state).state,
        (d answers s).drawn ++ (next value answers (d answers s).state).drawn,
        (next value answers (d answers s).state).result⟩ := by
  change Drawing.bind d next answers s = _
  simp only [Drawing.bind, h]

/-- Below a drawing that was cut short comes nothing. -/
theorem bind_apply_of_error {d : Drawing σ α} {next : α → Drawing σ β} {answers : Answers}
    {s : σ} {interruption : Interruption} (h : (d answers s).result = .error interruption) :
    (d >>= next) answers s =
      ⟨(d answers s).state, (d answers s).drawn, .error interruption⟩ := by
  change Drawing.bind d next answers s = _
  simp only [Drawing.bind, h]

instance : LawfulMonad (Drawing σ) := LawfulMonad.mk' (Drawing σ)
  (fun d ↦ by
    funext answers s
    change Drawing.bind d (fun value ↦ Drawing.pure value) answers s = d answers s
    simp only [Drawing.bind, Drawing.pure]
    cases h : d answers s with
    | mk state drawn result => cases result <;> simp)
  (fun value next ↦ by
    funext answers s
    rfl)
  (fun d next last ↦ by
    funext answers s
    change Drawing.bind (Drawing.bind d next) last answers s =
      Drawing.bind d (fun value ↦ Drawing.bind (next value) last) answers s
    simp only [Drawing.bind]
    cases (d answers s).result with
    | error interruption => rfl
    | ok value =>
      simp only
      cases (next value answers (d answers s).state).result with
      | error interruption => rfl
      | ok value => simp)

/-- The state so far. -/
def state : Drawing σ σ :=
  fun _ s ↦ ⟨s, [], .ok s⟩

/-- Changes the state. -/
def change (f : σ → σ) : Drawing σ Unit :=
  fun _ s ↦ ⟨f s, [], .ok ()⟩

/-- Draws one thing. -/
def draw (thing : Drawn) : Drawing σ Unit :=
  fun _ s ↦ ⟨s, [thing], .ok ()⟩

/-- Says something. -/
def say (tone : Tone) (text : String) : Drawing σ Unit :=
  draw (.remark tone text)

/-- Cuts the drawing short. -/
def interrupt (interruption : Interruption) : Drawing σ α :=
  fun _ s ↦ ⟨s, [], .error interruption⟩

/-- Ends the drawing with a fault. -/
def fail (fault : DrawingFault) : Drawing σ α :=
  interrupt (.fault fault)

/-- The value that is there, or a fault. -/
def demand (fault : DrawingFault) : Option α → Drawing σ α
  | some value => Drawing.pure value
  | none => fail fault

/-- Draws a text field, which answers its value unless the user has entered another. -/
def textField (label value key : String) : Drawing σ String :=
  fun answers s ↦
    ⟨s, [.textField label value key], .ok ((answers.texts.lookup key).getD value)⟩

/-- Draws a box to tick, which answers its value unless the user has changed it. -/
def checkbox (label : String) (value : Bool) (key : String) : Drawing σ Value :=
  fun answers s ↦ ⟨s, [.checkbox label value key], .ok (answers.box key value)⟩

/-- Draws a choice among options, which answers the first one unless the user has chosen. -/
def choice (label first : String) (others : List String) : Drawing σ String :=
  fun answers s ↦
    ⟨s, [.choice label (first :: others)], .ok ((answers.texts.lookup label).getD first)⟩

/-- Draws a button, which answers whether the user has pressed it; a disabled one cannot be pressed.
-/
def button (label key : String) (disabled : Bool) : Drawing σ Bool :=
  fun answers s ↦
    ⟨s, [.button label key disabled], .ok (!disabled && (answers.ticks.lookup key).getD false)⟩

/-- Draws with answers that depend on the state so far. -/
def heeding (heed : σ → Answers → Answers) (d : Drawing σ α) : Drawing σ α :=
  fun answers s ↦ d (heed s answers) s

/-- Draws with a part of a larger state. -/
def on (part : τ → σ) (put : σ → τ → τ) (d : Drawing σ α) : Drawing τ α :=
  fun answers t ↦
    let inner := d answers (part t)
    ⟨put inner.state t, inner.drawn, inner.result⟩

end Drawing

end MarkupBinding.InputForm
