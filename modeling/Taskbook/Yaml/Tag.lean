/-
The types of YAML data.

A tag names the type of a node. Those of the standard are written with two exclamation
marks for their common beginning; any other tag is kept by its name, and no data can
be made from it.
-/

namespace Taskbook.Yaml

/-- The type of a node. -/
inductive Tag where
  | null
  | bool
  | int
  | float
  | str
  | binary
  | timestamp
  | merge
  | value
  | yaml
  | seq
  | map
  | set
  | omap
  | pairs
  | other (name : String)
  deriving DecidableEq, Repr

namespace Tag

/-- The common beginning of the standard's tags. -/
def standard : String := "tag:yaml.org,2002:"

/-- The standard's tags by the last part of their names. -/
def standardTags : List (String × Tag) :=
  [("null", null), ("bool", bool), ("int", int), ("float", float), ("str", str),
    ("binary", binary), ("timestamp", timestamp), ("merge", merge), ("value", value),
    ("yaml", yaml), ("seq", seq), ("map", map), ("set", set), ("omap", omap), ("pairs", pairs)]

/-- The tag of a full name. -/
def ofName (name : String) : Tag :=
  match standardTags.find? (fun entry => standard ++ entry.1 = name) with
  | some entry => entry.2
  | none => other name

/-- How a tag is written in front of a node. -/
def shorthand : Tag → String
  | null => "!!null"
  | bool => "!!bool"
  | int => "!!int"
  | float => "!!float"
  | str => "!!str"
  | binary => "!!binary"
  | timestamp => "!!timestamp"
  | merge => "!!merge"
  | value => "!!value"
  | yaml => "!!yaml"
  | seq => "!!seq"
  | map => "!!map"
  | set => "!!set"
  | omap => "!!omap"
  | pairs => "!!pairs"
  | other name => "!<" ++ name ++ ">"

end Tag

end Taskbook.Yaml
