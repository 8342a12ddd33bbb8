import ScreenScript.CommandLine.Argument

namespace ScreenScript.CommandLine

def version : String := "0.1.0"

def usage : String :=
  "Usage:\n" ++
  "  sightline run SCRIPT [--inline] [--templates DIR] [--screen PNG] [--logical WxH]\n" ++
  "                [--var NAME=VALUE]... [--persist] [--json]\n" ++
  "  sightline check SCRIPT [--inline] [--templates DIR] [--json]\n" ++
  "  sightline vars list [--json]\n" ++
  "  sightline vars get NAME\n" ++
  "  sightline vars set NAME VALUE\n" ++
  "  sightline vars unset NAME\n" ++
  "  sightline examples"

def Fault.message : Fault → String
  | help | missingCommand => usage
  | version => "sightline " ++ CommandLine.version
  | unknownCommand => "error: there is no such command\n\n" ++ usage
  | unknownArgument => "error: there is no such argument\n\n" ++ usage
  | missingArgument => "error: an argument is missing\n\n" ++ usage
  | repeatedArgument => "error: an argument is given twice\n\n" ++ usage
  | needlessValue => "error: an argument that takes no value has one\n\n" ++ usage
  | missingValue => "error: an argument has no value\n\n" ++ usage
  | invalidValue reason => "error: " ++ reason

end ScreenScript.CommandLine
