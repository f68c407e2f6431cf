import MarkupBinding.Service.Settings
import MarkupBinding.Storage.FormStore
import MarkupBinding.Template.Use

/-!
# The service

The service as a value: its settings, the files below the folder it runs in, the source of the
template, and the supply of identifiers for saved inputs. Starting it makes the folder for its log.
-/

set_option autoImplicit false
set_option relaxedAutoImplicit false

namespace MarkupBinding

/-- The service between two requests. -/
structure Service where
  settings : Settings
  tree : FileTree
  source : TemplateSource
  /-- Whether the page of saved inputs was read already. -/
  indexRead : Bool
  ids : List String

namespace Service

/-- The encoding of template files. -/
def templateEncoding : String := "utf-8"

/-- Starts the service. -/
def start (settings : Settings) (tree : FileTree) (ids : List String) :
    Except PathFault Service :=
  (tree.makeFolders (tree.folder.below settings.logFolder)).map fun tree ↦
    { settings := settings
      tree := tree
      source := .fresh settings.templateLocation settings.reader templateEncoding
        settings.cacheTemplates
      indexRead := false
      ids := ids }

/-- The store of saved inputs. -/
def store (s : Service) : FormStore :=
  ⟨s.settings.formsFolder⟩

end Service

end MarkupBinding
