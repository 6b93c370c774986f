import Drawing.Fault
import Drawing.Table

/-!
# `Drawing/Service/Logging.lean` — how much is logged

A level of the log is given by its name, in letters of either case. A name that is none stands for the
level at which everything is logged. The name of the format of log lines and that of the styles of formats are
known as well, but neither stands for a level.
-/

namespace Drawing

/-- The levels of a log by name. -/
def logLevels : Table Nat := [
  ("CRITICAL", 50), ("FATAL", 50), ("ERROR", 40), ("WARNING", 30), ("WARN", 30), ("INFO", 20),
  ("DEBUG", 10), ("NOTSET", 0)]

/-- The level for names that are none. -/
def debugLevel : Nat := 10

/-- The name of the format of log lines. -/
def formatName : String := "BASIC_FORMAT"

/-- The format of log lines. -/
def logFormat : String := "%(levelname)s:%(name)s:%(message)s"

/-- The name of the styles of formats. -/
def stylesName : String := "_STYLES"

/-- The styles of formats, each behind the mark of its places. -/
def formatStyles : String :=
  "\x7b'%': (<class 'logging.PercentStyle'>, '%(levelname)s:%(name)s:%(message)s'), " ++
    "'\x7b': (<class 'logging.StrFormatStyle'>, '\x7blevelname\x7d:\x7bname\x7d:\x7bmessage\x7d'), " ++
    "'$': (<class 'logging.StringTemplateStyle'>, '$\x7blevelname\x7d:$\x7bname\x7d:$\x7bmessage\x7d')\x7d"

/-- The capital of a letter of a level's name. Beside the plain small letters these are the dotless i and
the long s, the only other characters whose capital is a plain letter. -/
def levelCapital (c : Char) : Char :=
  if c = '\u0131' then 'I' else if c = '\u017f' then 'S' else c.toUpper

/-- The level with a name. -/
def logLevel {α : Type} (name : String) : Except (Fault α) Nat :=
  let capitals := String.ofList (name.toList.map levelCapital)
  if capitals = formatName then .error (.unknownLevel logFormat)
  else if capitals = stylesName then .error (.notLevel formatStyles)
  else .ok ((Table.get? logLevels capitals).getD debugLevel)

end Drawing
