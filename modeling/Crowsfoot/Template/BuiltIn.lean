import Crowsfoot.Files.Workspace
import Crowsfoot.Migration.Writer

/-!
# Built-in templates

The templates by path. They form a small directory of their own, so that a path may lead to one in
any spelling, to a directory, or to nothing.
-/

namespace Crowsfoot.Template

open Crowsfoot.Files

/-- The directory of the templates, as it shows in messages. -/
def directory : Path := Path.ofString "<templates>"

/-- The templates in their written form. -/
def builtIn : Workspace :=
  .ofFiles [(directory.child Migration.skeletonName, .text (write Migration.skeleton))] []

/-- Why there is no template at a path. -/
inductive LoadError where
  | missing (path : Path)
  | file (e : FileError)
  | encoding (e : DecodeError)
  deriving Repr, DecidableEq

/-- The wording of a load error. -/
def LoadError.message : LoadError → String
  | .missing path => "Template file not found: " ++ path.toString
  | .file e => e.message
  | .encoding e => e.message

/-- The template at a path below the directory of the templates, in its written form. -/
def load (path : String) : Except LoadError String := do
  let p := directory.join (Path.ofString path)
  if (builtIn.kind? p).isNone then throw (.missing p)
  let content ← (builtIn.read p).mapError .file
  content.readText.mapError .encoding

/-- What loading a template reports. -/
def diagnosticsOfLoading (path : String) : Diagnostics :=
  match load path with
  | .ok _ => [⟨.debug, .loadingTemplates, "Loaded template from " ++ path⟩]
  | .error (.missing p) => [⟨.error, .loadingTemplates, (LoadError.missing p).message⟩]
  | .error _ => []

/-- What filling a written template reports. -/
def diagnosticsOfRendering (template : String) (sections : Sections) : Diagnostics :=
  match render template sections with
  | .error (.missingSection name) =>
    [⟨.error, .loadingTemplates,
      "Missing section in template: " ++ (TemplateError.missingSection name).message⟩]
  | _ => []

end Crowsfoot.Template
