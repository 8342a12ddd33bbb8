import ScreenScript.CommandLine.Words

namespace ScreenScript.CommandLine

/-- Where a script comes from: a file, or the command line itself. -/
structure Source where
  script : String
  inlineText : Bool

structure RunRequest where
  source : Source
  templates : Option String
  screen : Option String
  logical : Option Size
  presets : List (String × String)
  persist : Bool
  json : Bool

structure CheckRequest where
  source : Source
  templates : Option String
  json : Bool

inductive VariablesRequest where
  | list (json : Bool)
  | get (name : String)
  | set (name value : String)
  | unset (name : String)

inductive Command where
  | run (request : RunRequest)
  | check (request : CheckRequest)
  | lasting (request : VariablesRequest)
  | examples

def required {α : Type} : Option α → Except Fault α
  | some a => .ok a
  | none => .error .missingArgument

namespace Command

open Argument

def source (g : Given) : Except Fault Source := do
  return ⟨← required g.script, g.inlineText⟩

def readRun (words : List String) : Except Fault Command := do
  let form : Form := ⟨[inlineText, templates, screen, logical, preset, persist, json], [script]⟩
  let g ← form.read words
  let source ← source g
  if g.logical.isSome && g.screen.isNone then throw .missingArgument
  return .run {
    source, templates := g.templates, screen := g.screen, logical := g.logical
    presets := g.presets, persist := g.persist, json := g.json }

def readCheck (words : List String) : Except Fault Command := do
  let g ← Form.read ⟨[inlineText, templates, json], [script]⟩ words
  return .check { source := ← source g, templates := g.templates, json := g.json }

def readVariables (verb : String) (words : List String) : Except Fault Command := do
  match verb with
  | "list" =>
    let g ← Form.read ⟨[json], []⟩ words
    return .lasting (.list g.json)
  | "get" =>
    let g ← Form.read ⟨[], [name]⟩ words
    return .lasting (.get (← required g.name))
  | "set" =>
    let g ← Form.read ⟨[], [name, value]⟩ words
    return .lasting (.set (← required g.name) (← required g.value))
  | "unset" =>
    let g ← Form.read ⟨[], [name]⟩ words
    return .lasting (.unset (← required g.name))
  | _ => throw .unknownCommand

def readExamples (words : List String) : Except Fault Command := do
  let _ ← Form.read ⟨[], []⟩ words
  return .examples

def verbs : List String := ["run", "check", "vars", "examples"]

def variablesVerbs : List String := ["list", "get", "set", "unset"]

def readOther (known : List String) (hasVersion : Bool) (word : String) (rest : List String) :
    Fault :=
  match Word.ofString word with
  | .dashes =>
    match rest with
    | [] => .missingCommand
    | next :: _ => if known.contains next || next = "help" then .unknownArgument else .unknownCommand
  | .long label attached =>
    if label = "help" ∨ (hasVersion ∧ label = "version") then
      if attached.isSome then .needlessValue
      else if label = "help" then .help
      else .version
    else .unknownArgument
  | .short first =>
    if first = 'h' then .help
    else if hasVersion ∧ first = 'V' then .version
    else .unknownArgument
  | .plain => .unknownCommand

def helpBelow (known : List String) (topic : List String) : Fault :=
  match topic with
  | [] => .help
  | [word] => if known.contains word || word = "help" then .help else .unknownCommand
  | _ => .unknownCommand

def helpOn (topic : List String) : Fault :=
  match topic with
  | "vars" :: below => helpBelow variablesVerbs below
  | _ => helpBelow verbs topic

def read (words : List String) : Except Fault Command :=
  match words with
  | [] => .error .missingCommand
  | "run" :: rest => readRun rest
  | "check" :: rest => readCheck rest
  | "vars" :: rest =>
    match rest with
    | [] => .error .missingCommand
    | "help" :: topic => .error (helpBelow variablesVerbs topic)
    | verb :: rest =>
      if variablesVerbs.contains verb then readVariables verb rest
      else .error (readOther variablesVerbs false verb rest)
  | "examples" :: rest => readExamples rest
  | "help" :: topic => .error (helpOn topic)
  | word :: rest => .error (readOther verbs true word rest)

end Command

end ScreenScript.CommandLine
