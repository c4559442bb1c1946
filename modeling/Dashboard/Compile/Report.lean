import Dashboard.Kind.Registry
/-!
# Compile reports

A compile always answers with a document. Widgets that it had to leave out are named by
diagnostics.
-/

namespace Dashboard

open Number

inductive Diagnostic where
  | unknownKind (page : Nat) (widget kind : String)
  | widgetFailed (page : Nat) (widget kind reason : String)
  | resolutionFailed (kind reason : String)
deriving DecidableEq, Repr

namespace Diagnostic

def message : Diagnostic → String
  | .unknownKind page widget kind =>
    "page " ++ natText page ++ ": widget " ++ widget ++ " has unknown type " ++ kind
  | .widgetFailed page widget kind reason =>
    "page " ++ natText page ++ ": " ++ kind ++ " widget " ++ widget ++ " skipped: " ++ reason
  | .resolutionFailed kind reason => kind ++ " entities not resolved: " ++ reason

def toJson : Diagnostic → Json
  | .unknownKind page widget kind =>
    .object [("kind", .string "unknown_widget_type"), ("page", .ofNat page),
      ("widget", .string widget), ("widget_type", .string kind)]
  | .widgetFailed page widget kind reason =>
    .object [("kind", .string "plugin_failed"), ("page", .ofNat page), ("widget", .string widget),
      ("widget_type", .string kind), ("message", .string reason)]
  | .resolutionFailed kind reason =>
    .object [("kind", .string "entity_resolution_failed"), ("widget_type", .string kind),
      ("message", .string reason)]

end Diagnostic

inductive Output where
  | procedural (document : ProceduralDocument)
  | retained (document : RetainedDocument)
  | declarative (document : DeclarativeDocument)

namespace Output

def text : Output → String
  | .procedural d => d.text
  | .retained d => d.text
  | .declarative d => d.text

def toJson : Output → Json
  | .procedural d => .object [("kind", .string "procedural"), ("document", .string d.text)]
  | .retained d => .object [("kind", .string "retained"), ("document", d.toJson)]
  | .declarative d => .object [("kind", .string "declarative"), ("document", d.toJson)]

end Output

structure Report where
  target : Target
  output : Output
  diagnostics : List Diagnostic
  emitted : Nat

namespace Report

def isClean (r : Report) : Bool := r.diagnostics.isEmpty

def toJson (r : Report) : Json :=
  .object [("target", .string r.target.name), ("output", r.output.toJson),
    ("diagnostics", .array (r.diagnostics.map Diagnostic.toJson)), ("widgets_emitted", .ofNat r.emitted)]

end Report

end Dashboard
