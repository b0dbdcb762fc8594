/-
# Keywords

The reserved words of class texts.  A keyword is recognised in any letter case, so its identity is
a constructor and the case it was written in stays with the token's text.
-/

namespace ContractLint

/-- A reserved word. -/
inductive Keyword where
  | kwAcross | kwAgent | kwAlias | kwAll | kwAnd | kwAs | kwAssign | kwAttached | kwAttribute
  | kwCheck | kwClass | kwConvert | kwCreate | kwCurrent | kwDebug | kwDeferred | kwDetachable
  | kwDo | kwElse | kwElseif | kwEnd | kwEnsure | kwExpanded | kwExport | kwExternal | kwFalse
  | kwFeature | kwFrom | kwFrozen | kwIf | kwImplies | kwInherit | kwInspect | kwInvariant | kwIs
  | kwLike | kwLocal | kwLoop | kwNot | kwNote | kwObsolete | kwOld | kwOnce | kwOr | kwPrecursor
  | kwRedefine | kwRename | kwRequire | kwRescue | kwResult | kwRetry | kwSelect | kwSeparate
  | kwSome | kwThen | kwTrue | kwTuple | kwUndefine | kwUntil | kwVariant | kwVoid | kwWhen
  | kwXor
deriving DecidableEq, Repr, Inhabited

namespace Keyword

/-- The lower-case spelling of a keyword. -/
def word : Keyword → String
  | kwAcross => "across"
  | kwAgent => "agent"
  | kwAlias => "alias"
  | kwAll => "all"
  | kwAnd => "and"
  | kwAs => "as"
  | kwAssign => "assign"
  | kwAttached => "attached"
  | kwAttribute => "attribute"
  | kwCheck => "check"
  | kwClass => "class"
  | kwConvert => "convert"
  | kwCreate => "create"
  | kwCurrent => "current"
  | kwDebug => "debug"
  | kwDeferred => "deferred"
  | kwDetachable => "detachable"
  | kwDo => "do"
  | kwElse => "else"
  | kwElseif => "elseif"
  | kwEnd => "end"
  | kwEnsure => "ensure"
  | kwExpanded => "expanded"
  | kwExport => "export"
  | kwExternal => "external"
  | kwFalse => "false"
  | kwFeature => "feature"
  | kwFrom => "from"
  | kwFrozen => "frozen"
  | kwIf => "if"
  | kwImplies => "implies"
  | kwInherit => "inherit"
  | kwInspect => "inspect"
  | kwInvariant => "invariant"
  | kwIs => "is"
  | kwLike => "like"
  | kwLocal => "local"
  | kwLoop => "loop"
  | kwNot => "not"
  | kwNote => "note"
  | kwObsolete => "obsolete"
  | kwOld => "old"
  | kwOnce => "once"
  | kwOr => "or"
  | kwPrecursor => "precursor"
  | kwRedefine => "redefine"
  | kwRename => "rename"
  | kwRequire => "require"
  | kwRescue => "rescue"
  | kwResult => "result"
  | kwRetry => "retry"
  | kwSelect => "select"
  | kwSeparate => "separate"
  | kwSome => "some"
  | kwThen => "then"
  | kwTrue => "true"
  | kwTuple => "tuple"
  | kwUndefine => "undefine"
  | kwUntil => "until"
  | kwVariant => "variant"
  | kwVoid => "void"
  | kwWhen => "when"
  | kwXor => "xor"

/-- Every keyword. -/
def all : List Keyword :=
  [kwAcross, kwAgent, kwAlias, kwAll, kwAnd, kwAs, kwAssign, kwAttached, kwAttribute, kwCheck,
   kwClass, kwConvert, kwCreate, kwCurrent, kwDebug, kwDeferred, kwDetachable, kwDo, kwElse,
   kwElseif, kwEnd, kwEnsure, kwExpanded, kwExport, kwExternal, kwFalse, kwFeature, kwFrom,
   kwFrozen, kwIf, kwImplies, kwInherit, kwInspect, kwInvariant, kwIs, kwLike, kwLocal, kwLoop,
   kwNot, kwNote, kwObsolete, kwOld, kwOnce, kwOr, kwPrecursor, kwRedefine, kwRename, kwRequire,
   kwRescue, kwResult, kwRetry, kwSelect, kwSeparate, kwSome, kwThen, kwTrue, kwTuple, kwUndefine,
   kwUntil, kwVariant, kwVoid, kwWhen, kwXor]

/-- The keyword with this lower-case spelling. -/
def ofWord? (word : String) : Option Keyword :=
  all.find? (·.word == word)

/-- The keyword that a word of any letter case spells.  Words are ASCII, and so is this folding. -/
def ofText? (cs : List Char) : Option Keyword :=
  ofWord? (String.ofList (cs.map Char.toLower))

end Keyword

end ContractLint
