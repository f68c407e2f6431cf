import MarkupBinding.Markup.Tree
import MarkupBinding.Service.Assignments
import MarkupBinding.Storage.Location
import MarkupBinding.Text.Case
import MarkupBinding.Validation.Issue

/-!
# Settings

What the service is set up with. Settings are read from named entries; what no entry names has a
default. The locations of the template and of the saved inputs are put below the folder that the
service runs in, with a tilde in front standing for the home folder.
-/

set_option autoImplicit false
set_option relaxedAutoImplicit false

namespace MarkupBinding

/-- The settings of the service. -/
structure Settings where
  templateLocation : Location
  /-- The name of the wanted reader of markup. -/
  reader : String
  /-- Keep template documents while their files stay unchanged. -/
  cacheTemplates : Bool
  /-- Keep components that take nothing in schemas. -/
  includeEmpty : Bool
  formsFolder : Location
  /-- The name of the least level of what is logged, in capital letters. -/
  logLevel : String
  logFolder : Location
  deriving DecidableEq, Repr

/-- Why settings cannot be read. -/
inductive SettingsFault where
  /-- A location begins with the home of somebody who is not known. -/
  | unknownHome
  | misfit (issues : List Issue)

namespace Settings

/-- The folder that the service runs in and the home folder. -/
structure Surroundings where
  folder : Location
  home : Location
  deriving DecidableEq, Repr

/-- Reads an entry as a location. -/
def checkLocation (v : Value) : Checked Location :=
  match v with
  | .string s => .ok (.ofText s)
  | _ => .issue .notLocation v

/-- Reads the entry of a name, or takes the default. -/
def checkEntry {α : Type} (entries : List (String × Value)) (name : String) (default : α)
    (check : Value → Checked α) : Checked α :=
  match entries.lookup name with
  | none => .ok default
  | some v => (check v).below (.key name)

/-- Reads the entries; locations are as written. -/
def checkEntries (entries : List (String × Value)) : Checked Settings :=
  let template := checkEntry entries "template_path" (.ofText "./templates/game.html")
    checkLocation
  let reader := checkEntry entries "html_parser" Markup.readerName checkText
  let cache := checkEntry entries "cache_templates" true checkFlag
  let empty := checkEntry entries "include_empty_components" true checkFlag
  let forms := checkEntry entries "forms_dir" (.ofText "./forms") checkLocation
  let level := checkEntry entries "log_level" "INFO" checkText
  let logs := checkEntry entries "log_dir" (.ofText "./logs") checkLocation
  match template.both (reader.both (cache.both (empty.both (forms.both (level.both logs))))) with
  | .error issues => .error issues
  | .ok (template, reader, cache, empty, forms, level, logs) =>
    .ok ⟨template, reader, cache, empty, forms, Text.upper level, logs⟩

/-- The location as it is used: from the home folder, or below the folder the service runs in. -/
def settle (around : Surroundings) (l : Location) : Except SettingsFault Location :=
  match l.expandHome around.home with
  | none => .error .unknownHome
  | some l => .ok (around.folder.below l)

/-- Whether an entry that is there names the home of somebody. -/
def namesHome (around : Surroundings) (v : Value) : Bool :=
  match v with
  | .string s => ((Location.ofText s).expandHome around.home).isNone
  | _ => false

/-- Reads settings from entries. A home that is not known comes before everything else. -/
def read (around : Surroundings) (entries : List (String × Value)) :
    Except SettingsFault Settings :=
  if ["template_path", "forms_dir"].any fun name ↦
      (entries.lookup name).any (namesHome around) then .error .unknownHome
  else match checkEntries entries with
    | .error issues => .error (.misfit issues)
    | .ok s => do
      let template ← settle around s.templateLocation
      let forms ← settle around s.formsFolder
      return { s with templateLocation := template, formsFolder := forms }

/-- The entries that named values stand for: names in small letters, the last value of each. -/
def entriesOf (values : List (String × String)) : List (String × Value) :=
  Keyed.ofPairs (values.map fun (name, value) ↦ (Text.lower name, .string value))

/-- Reads settings from the values of an environment and, where it is silent, from a file of
assignments. -/
def ofEnvironment (around : Surroundings) (environment : List (String × String))
    (file : Option String) : Except SettingsFault Settings :=
  let assigned := match file with
    | some text => entriesOf (Assignments.read environment text)
    | none => []
  read around (Keyed.update assigned (entriesOf environment))

/-- The names of levels, with the names under which they are shown. -/
def levelNames : List (String × String) :=
  [("CRITICAL", "CRITICAL"), ("FATAL", "CRITICAL"), ("ERROR", "ERROR"), ("WARNING", "WARNING"),
    ("WARN", "WARNING"), ("INFO", "INFO"), ("DEBUG", "DEBUG"), ("NOTSET", "NOTSET")]

/-- The level that is logged; a name of no level stands for `INFO`. -/
def level (s : Settings) : String :=
  (levelNames.lookup s.logLevel).getD "INFO"

end Settings

end MarkupBinding
