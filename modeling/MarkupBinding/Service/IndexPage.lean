import MarkupBinding.Markup.Node
import MarkupBinding.Markup.Mark
import MarkupBinding.Value.Literal

/-!
# The page of saved inputs

A page that lists saved inputs, as a template of its own: the list is a collection, and the list and
the message for an empty store are toggles of which the input switches one off. A click on a name
sends the saved input to be bound.
-/

set_option autoImplicit false
set_option relaxedAutoImplicit false

namespace MarkupBinding.IndexPage

/-- An element with attributes of plain text. -/
def element (name : String) (attrs : List (String × String)) (children : List Node) : Node :=
  .element ⟨name, attrs.map fun (key, text) ↦ (key, .plain text)⟩ children

/-- An element of a style class, with further attributes of plain text. -/
def styled (name style : String) (attrs : List (String × String)) (children : List Node) : Node :=
  .element ⟨name, ("class", .words [style]) :: attrs.map fun (key, text) ↦ (key, .plain text)⟩
    children

/-- Character data. -/
def text (content : String) : Node :=
  .text .characters content

/-- A line feed. -/
def line : Node := text "\n"

/-- The nodes on lines of their own. -/
def lines : List Node → List Node
  | [] => [line]
  | n :: rest => line :: n :: lines rest

/-- The name of the script's function that sends a saved input to be bound. -/
def sendFunction : String := "loadAndRenderForm"

/-- The style rules of the page. -/
def style : String :=
  "\n        body \x7b font-family: Arial, sans-serif; max-width: 800px; margin: 0 auto; " ++
  "padding: 20px; background-color: #f5f5f5; \x7d" ++
  "\n        .container \x7b background: white; padding: 30px; border-radius: 8px; " ++
  "box-shadow: 0 2px 10px rgba(0,0,0,0.1); \x7d" ++
  "\n        h1 \x7b color: #333; text-align: center; margin-bottom: 30px; \x7d" ++
  "\n        .file-list \x7b list-style: none; padding: 0; \x7d" ++
  "\n        .file-item \x7b margin: 10px 0; padding: 15px; background: #f8f9fa; " ++
  "border: 1px solid #e9ecef; border-radius: 4px; cursor: pointer; \x7d" ++
  "\n        .file-item:hover \x7b background: #e9ecef; \x7d" ++
  "\n        .no-files \x7b text-align: center; color: #666; font-style: italic; " ++
  "padding: 40px; \x7d" ++
  "\n        .error \x7b color: #dc3545; text-align: center; margin-top: 20px; padding: 10px; " ++
  "background: #f8d7da; border-radius: 4px; display: none; \x7d" ++
  "\n        #renderForm \x7b display: none; \x7d\n    "

/-- The script of the page. -/
def script : String :=
  "\n        async function " ++ sendFunction ++ "(filename) \x7b" ++
  "\n            const errorEl = document.getElementById('error');" ++
  "\n            errorEl.style.display = 'none';" ++
  "\n            try \x7b" ++
  "\n                const response = await fetch('/forms/' + filename);" ++
  "\n                if (!response.ok) \x7b" ++
  "\n                    throw new Error('Failed to load form: ' + response.statusText);" ++
  "\n                \x7d" ++
  "\n                document.getElementById('jsonDataInput').value = await response.text();" ++
  "\n                document.getElementById('renderForm').submit();" ++
  "\n            \x7d catch (error) \x7b" ++
  "\n                errorEl.textContent = 'Error: ' + error.message;" ++
  "\n                errorEl.style.display = 'block';" ++
  "\n            \x7d" ++
  "\n        \x7d\n    "

/-- The head of the page. -/
def head : Node :=
  element "head" [] (lines [
    .element ⟨"meta", [("charset", .encoding "UTF-8")]⟩ [],
    element "meta"
      [("name", "viewport"), ("content", "width=device-width, initial-scale=1.0")] [],
    element "title" [] [text "Saved Forms"],
    element "style" [] [text style]])

/-- The stencil of a listed input. -/
def item : Node :=
  styled "li" "file-item"
    [(Mark.collectionItem, "file"), (Mark.textContent, "file.name"),
      ("data-attribute-onclick", sendFunction ++ "('$\x7bfile.name\x7d')")]
    [text "form.json"]

/-- The component that takes the names of the saved inputs. -/
def container : Node :=
  styled "div" "container" [(Mark.component, "root")] (lines [
    element "h1" [] [text "Saved Forms"],
    styled "p" "summary" [(Mark.toggleable, "showList")]
      [element "span" [(Mark.textContent, "root.count")] [text "0"], text " saved form(s)"],
    styled "ul" "file-list" [(Mark.toggleable, "showList"), (Mark.collection, "root.files")]
      (lines [item]),
    styled "div" "no-files" [(Mark.toggleable, "showEmpty")]
      [text "No forms found in the forms directory."],
    styled "div" "error" [("id", "error")] []])

/-- The form that sends a saved input to be bound. -/
def form : Node :=
  element "form"
    [("id", "renderForm"), ("action", "/render"), ("method", "POST"), ("target", "_self")]
    (lines [element "input"
      [("type", "hidden"), ("name", "jsonData"), ("id", "jsonDataInput")] []])

/-- The template of the page. -/
def template : Document :=
  [.text .doctype "html", line,
    element "html" [("lang", "en")] (lines [
      head,
      element "body" [] (lines [container, form, element "script" [] [text script]])]),
    line]

/-- The input of the page for the names of the saved inputs. -/
def input (names : List String) : Value :=
  .object [("showList", .bool !names.isEmpty), ("showEmpty", .bool names.isEmpty),
    ("count", .string (intText names.length)),
    ("files", .list (names.map fun name ↦ .object [("name", .string name)]))]

end MarkupBinding.IndexPage
