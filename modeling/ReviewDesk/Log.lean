import ReviewDesk.Failure
import ReviewDesk.Journal
import ReviewDesk.Reply

/-!
# Loggers

What a logger writes: the lines at or above its level, each with the context that is bound when it is written.
The loggers of the database toolkit write nothing below a warning, whatever the level is.
The context holds the mark of a request, once one is bound and until it is cleared. Two fields ask for the
circumstances of a line, which are not told. A few names are taken: a line with a field of such a name is
refused, whether or not it is serious enough to be written.
-/
namespace ReviewDesk

/-- What is done with a logger. -/
inductive LogStep where
  | write (level : Level) (event : Text) (fields : List (Text × Json))
  | bind (request : Text)
  | clear
  deriving Repr

/-- Why a line is refused. -/
inductive LineFlaw where
  /-- A field has the name of an argument that the operation has got already. -/
  | doubled (operation argument : String)
  /-- A field that stands for the record of another logger does not hold one. -/
  | misused (how : Misuse)
  deriving Repr, DecidableEq

/-- The words for a flaw. -/
def LineFlaw.message : LineFlaw → String
  | doubled operation argument =>
    "BoundLogger." ++ operation ++ "() got multiple values for argument '" ++ argument ++ "'"
  | misused how => how.message

/-- The name that the loggers of the database toolkit have in front, alone or with a point after it. -/
def quietFamily : String := "sqlalchemy"

/-- Whether a logger is one of the database toolkit. -/
def isQuiet (logger : Text) : Bool :=
  logger = .ofString quietFamily || (Text.ofString (quietFamily ++ ".")).points.isPrefixOf logger.points

/-- The level from which a logger writes. -/
def Level.heldBy (logger : Text) (level : Level) : Level :=
  if isQuiet logger && level.rank < Level.warning.rank then .warning else level

/-- Whether a field asks for the circumstances of its line. -/
def asksForCircumstances (name : Text) : Bool := ["exc_info", "stack_info"].any fun s => name = .ofString s

/-- What is wrong with the names of the fields of a line. -/
def lineFlaw? (level : Level) (fields : List (Text × Json)) : Option LineFlaw :=
  let taken := fields.findSome? fun f => ["self", "event"].find? fun s => f.1 = .ofString s
  match taken with
  | some argument => some (.doubled level.label argument)
  | none =>
    if (Json.lookup "method_name" fields).isSome then some (.doubled "_proxy_to_logger" "method_name")
    else
      match Json.lookup "_record" fields with
      | none | some .null => none
      | some j => some (.misused (.noPart j.form "name"))

/-- The lines written from a level on, with the given request bound at the beginning, unless one of them is
refused. -/
def writeFrom (threshold : Level) (logger : Text) :
    Option Text → List LogStep → Except LineFlaw (List (List (Text × Json)))
  | _, [] => .ok []
  | _, .bind request :: steps => writeFrom threshold logger (some request) steps
  | _, .clear :: steps => writeFrom threshold logger none steps
  | request, .write level event fields :: steps =>
    match lineFlaw? level fields with
    | some flaw => .error flaw
    | none => do
      let rest ← writeFrom threshold logger request steps
      if threshold.rank ≤ level.rank then
        let context : List (Text × Json) := match request with
          | some r => [("request_id", .text r)]
          | none => []
        let told := fields.filter fun f => !asksForCircumstances f.1
        return Record.toFields ⟨event, level, logger, told⟩ context :: rest
      else return rest

/-- The lines that a logger writes, unless one of them is refused. Nothing is bound at the beginning. -/
def writeLog (level : Level) (logger : Text) (steps : List LogStep) :
    Except LineFlaw (List (List (Text × Json))) :=
  writeFrom (level.heldBy logger) logger none steps

end ReviewDesk
