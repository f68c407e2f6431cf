import MarkupBinding.InputForm.Client

/-!
# The page

The page beside the service: at its side the state of the service and the saved inputs, one of which
can be loaded, and in the middle the form for the template's schema with buttons to render and to
save what was entered. A loaded input replaces all that was remembered and the page is drawn anew
with its data as defaults.
-/

set_option autoImplicit false
set_option relaxedAutoImplicit false

namespace MarkupBinding.InputForm

/-- Draws whether the service answers. -/
def drawStatus (c : Connection) : Drawing Visit Unit := do
  if ← isReached c then Drawing.say .success "✅ API Connected"
  else
    Drawing.say .error "❌ API Disconnected"
    Drawing.say .info ("API URL: " ++ c.base)

/-- The choice that loads no saved input. -/
def noInput : String := "(new)"

/-- Draws the button that loads the chosen input. -/
def drawLoading (c : Connection) (choice : String) : Drawing Visit Unit := do
  if ← Drawing.button "Load input" "Load input" false then
    match ← fetchSaved c choice with
    | none => pure ()
    | some .null => pure ()
    | some data =>
      Drawing.change fun visit ↦ { visit with session := visit.session.load data }
      Drawing.interrupt .rerun

/-- Draws the side of the page. -/
def drawSide (c : Connection) : Drawing Visit Unit := do
  Drawing.say .title "🧩 bindery"
  Drawing.draw .divider
  drawStatus c
  Drawing.draw .divider
  Drawing.say .subheader "Saved inputs"
  let names ← savedNames c
  let choice ← Drawing.choice "Load" noInput names
  if choice == noInput then pure () else drawLoading c choice
  Drawing.draw .divider
  Drawing.say .caption ("API: \x60" ++ c.base ++ "\x60")

/-- Draws the input form over the numbers of rows that the page remembers. -/
def drawInput (schema defaults : Value) : Drawing Visit Value := do
  let entries ← Drawing.on (fun visit : Visit ↦ visit.session.rowCounts)
    (fun counts visit ↦ { visit with session := visit.session.withRowCounts counts })
    (drawForm schema defaults)
  pure (.object entries)

/-- Draws the buttons that work on an input document. -/
def drawActions (c : Connection) (document : Value) : Drawing Visit Unit := do
  if ← Drawing.button "🚀 Render" "🚀 Render" false then renderDocument c document
  if ← Drawing.button "💾 Save" "💾 Save" false then saveDocument c document

/-- Draws the markup rendered last, if there is any. -/
def drawPreview : Drawing Visit Unit := do
  let markup := (← Drawing.state).session.markup
  if markup.isEmpty then pure ()
  else
    Drawing.say .subheader "Preview"
    Drawing.draw (.markup markup)

/-- Draws the page. Without a schema nothing more is drawn. -/
def drawPage (c : Connection) : Drawing Visit Unit := do
  drawSide c
  let defaults := (← Drawing.state).session.defaults
  Drawing.say .title "bindery"
  Drawing.say .markdown "Fill in the template's data and render it"
  match ← fetchSchema c with
  | none => Drawing.interrupt .stop
  | some schema =>
    let document ← drawInput schema defaults
    Drawing.draw .divider
    drawActions c document
    Drawing.draw (.expander "Input JSON")
    Drawing.draw (.json document)
    drawPreview

end MarkupBinding.InputForm
