import SdlAssembly.Model.Assembly
import SdlAssembly.Report.Json

/-!
# The report of a model

What a report tells of a model: how many definitions it has, and its registries in their order.
-/

namespace SdlAssembly.Report

open Model Annotation Grammar

def ofLeafType (info : LeafType) : Json :=
  .object [("runtimeType", .optional info.runtimeType),
    ("serializationType", .optional info.serializationType)]

def ofPattern (set : SelectionSet) : Json := .string (formatSelectionSet set)

def ofPatterns (patterns : EntityPatterns) : Json :=
  .object [("global", .list (patterns.globals.map ofPattern)),
    ("types", .object (patterns.types.toList.map fun (name, set) => (name, ofPattern set)))]

def ofModel (model : TypeSystem) : Json :=
  .object [("definitions", .int model.definitions.length),
    ("placeholderScalars", .list (model.placeholders.keys.map .string)),
    ("leafTypes", .object (model.leafTypes.toList.map fun (name, info) => (name, ofLeafType info))),
    ("entityPatterns", ofPatterns model.entityPatterns)]

end SdlAssembly.Report
