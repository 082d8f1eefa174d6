import TabCompletion.Assoc

/-!
Fixed tables of the shell language: keywords, operators, statement flags, special variables, scopes,
drives and common parameters.
-/

namespace TabCompletion.Language

def keywords : List String := [
  "begin", "break", "catch", "class", "configuration", "continue", "data", "define", "do",
  "dynamicparam", "else", "elseif", "end", "enum", "exit", "filter", "finally", "for", "foreach",
  "from", "function", "hidden", "if", "in", "inlinescript", "parallel", "param", "process",
  "return", "sequence", "static", "switch", "throw", "trap", "try", "until", "using", "var",
  "while", "workflow"]

def operators : List (String × String) := [
  ("and", "Logical AND"), ("as", "Convert to type"), ("band", "Bitwise AND"),
  ("bnot", "Bitwise NOT"), ("bor", "Bitwise OR"), ("bxor", "Bitwise exclusive OR"),
  ("ccontains", "Case-sensitive containment"), ("ceq", "Case-sensitive equality"),
  ("cge", "Case-sensitive greater than or equal"), ("cgt", "Case-sensitive greater than"),
  ("cin", "Case-sensitive membership"), ("cle", "Case-sensitive less than or equal"),
  ("clike", "Case-sensitive wildcard match"), ("clt", "Case-sensitive less than"),
  ("cmatch", "Case-sensitive regular expression match"), ("cne", "Case-sensitive inequality"),
  ("cnotcontains", "Case-sensitive non-containment"), ("cnotin", "Case-sensitive non-membership"),
  ("cnotlike", "Case-sensitive wildcard non-match"),
  ("cnotmatch", "Case-sensitive regular expression non-match"), ("contains", "Containment"),
  ("creplace", "Case-sensitive replace"), ("csplit", "Case-sensitive split"), ("eq", "Equality"),
  ("f", "Format string"), ("ge", "Greater than or equal"), ("gt", "Greater than"),
  ("icontains", "Case-insensitive containment"), ("ieq", "Case-insensitive equality"),
  ("ige", "Case-insensitive greater than or equal"), ("igt", "Case-insensitive greater than"),
  ("iin", "Case-insensitive membership"), ("ile", "Case-insensitive less than or equal"),
  ("ilike", "Case-insensitive wildcard match"), ("ilt", "Case-insensitive less than"),
  ("imatch", "Case-insensitive regular expression match"), ("in", "Membership"),
  ("ine", "Case-insensitive inequality"), ("inotcontains", "Case-insensitive non-containment"),
  ("inotin", "Case-insensitive non-membership"),
  ("inotlike", "Case-insensitive wildcard non-match"),
  ("inotmatch", "Case-insensitive regular expression non-match"),
  ("ireplace", "Case-insensitive replace"), ("is", "Type test"), ("isnot", "Negated type test"),
  ("isplit", "Case-insensitive split"), ("join", "Join"), ("le", "Less than or equal"),
  ("like", "Wildcard match"), ("lt", "Less than"), ("match", "Regular expression match"),
  ("ne", "Inequality"), ("not", "Logical NOT"), ("notcontains", "Non-containment"),
  ("notin", "Non-membership"), ("notlike", "Wildcard non-match"),
  ("notmatch", "Regular expression non-match"), ("or", "Logical OR"), ("replace", "Replace"),
  ("shl", "Shift left"), ("shr", "Shift right"), ("split", "Split"),
  ("xor", "Logical exclusive OR")]

def statementFlags : List (String × List String) := [
  ("switch", ["CaseSensitive", "Exact", "File", "Regex", "Wildcard"]), ("foreach", ["Parallel"])]

def specialVariables : List String := [
  "$", "?", "^", "_", "args", "ConsoleFileName", "Error", "Event", "EventArgs", "EventSubscriber",
  "ExecutionContext", "false", "foreach", "HOME", "Host", "input", "LASTEXITCODE", "Matches",
  "MyInvocation", "NestedPromptLevel", "null", "PID", "PROFILE", "PSBoundParameters", "PSCmdlet",
  "PSCommandPath", "PSCulture", "PSDebugContext", "PSHOME", "PSItem", "PSScriptRoot",
  "PSSenderInfo", "PSUICulture", "PSVersionTable", "PWD", "Sender", "ShellId", "StackTrace",
  "switch", "this", "true"]

def scopes : List String := [
  "global", "local", "script", "private"]

def drives : List String := [
  "env", "function", "variable", "alias"]

def commonParameters : List String := [
  "Verbose", "Debug", "ErrorAction", "WarningAction", "InformationAction", "ErrorVariable",
  "WarningVariable", "InformationVariable", "OutVariable", "OutBuffer", "PipelineVariable",
  "WhatIf", "Confirm"]

def holds (names : List String) (name : Text) : Bool :=
  let lowered := Text.lower name
  names.any fun n => Text.lower n == lowered

def isReserved (word : Text) : Bool := holds keywords word

def isCommonParameter (name : Text) : Bool := holds commonParameters name

def flagsOf? (keyword : Text) : Option (List Text) :=
  let lowered := Text.lower keyword
  (statementFlags.find? fun entry => Text.lower entry.1 == lowered).map fun entry =>
    entry.2.map Text.ofString

end TabCompletion.Language
