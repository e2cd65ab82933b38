import ChatStream.CommandLine.Arguments
import ChatStream.Text.Hanging
import ChatStream.Text.Plain
import ChatStream.Text.Styled

/-!
# Help

What the program says about itself. A help text is a line on what is described, the form of a
command line, and tables of commands, arguments and options, each with its left column as wide as
the widest entry. Headings and what is typed as it stands are styled, but the text that leaves the
program is plain unless styles are forced; so control sequences in the variables that it shows are
dropped too, and one that is left open there reaches into the text that follows.
-/

namespace ChatStream

open Text

/-- What the program says of its version. -/
def versionText : String := "hearth 0.1.0\n"

/-- A line on each command. -/
def CommandName.about : CommandName → String
  | .ask => "Send one message and stream the answer"
  | .chat => "Interactive conversation"
  | .health => "Check whether the model server is reachable"

/-- A line on the command that gives help. -/
def helpAbout : String := "Print this message or the help of the given subcommand(s)"

/-- A table under a heading. -/
def helpTable (title : String) (rows : List (StyledText × String)) : StyledText :=
  let width := rows.foldl (fun w (left, _) ↦ max w left.width) 0
  let row (left : StyledText) (right : String) : StyledText :=
    .plain "  " :: left ++
      [.plain ("".pushn ' ' (width - left.width) ++ "  " ++ hang (width + 4) right ++ "\n")]
  [.plain "\n", .heading (title ++ ":"), .plain "\n"] ++
    rows.flatMap fun (left, right) ↦ row left right

namespace OptionInfo

/-- The spellings of an option, in the columns of a table: the short one may be missing. -/
def spellings (short : Option Char) (long : String) : StyledText :=
  (match short with
    | some c => [.strong ("-" ++ c.toString), .plain ", "]
    | none => [.plain "    "]) ++ [.strong ("--" ++ long)]

/-- How the option is written. -/
def form (o : OptionInfo) : StyledText :=
  spellings o.short o.long ++ [.plain (" <" ++ o.value ++ ">")]

/-- What the option is for, with the variable that may stand for it and the value it has anyway. -/
def explanation (env : Environment) (o : OptionInfo) : String :=
  o.about ++
    (match o.envVar with
      | some name => " [env: " ++ name ++ "=" ++ (env.get? name).getD "" ++ "]"
      | none => "") ++
    (match o.preset with
      | some value => " [default: " ++ value ++ "]"
      | none => "")

end OptionInfo

/-- The table of options of a topic. -/
def optionTable (env : Environment) (topic : HelpTopic) : StyledText :=
  let rows := (OptionInfo.all.filter fun o ↦ !o.option.isOfAsk || topic = .command .ask).map
    fun o ↦ (o.form, o.explanation env)
  let own := [(OptionInfo.spellings 'h' "help", "Print help")] ++
    (if topic = .program then [(OptionInfo.spellings 'V' "version", "Print version")] else [])
  helpTable "Options" (rows ++ own)

/-- The help text of a topic. -/
def helpText (env : Environment) (topic : HelpTopic) : StyledText :=
  let usage (about name form : String) : StyledText :=
    [.plain (about ++ "\n\n"), .heading "Usage:", .plain " ", .strong name,
      .plain (" " ++ form ++ "\n")]
  match topic with
  | .program =>
    usage "Terminal surface for streaming conversations with a locally hosted model" "hearth"
        "[OPTIONS] <COMMAND>" ++
      helpTable "Commands"
        (CommandName.all.map (fun n ↦ ([.strong n.word], n.about)) ++
          [([.strong "help"], helpAbout)]) ++
      optionTable env topic
  | .command .ask =>
    usage (CommandName.about .ask) "hearth ask" "[OPTIONS] <MESSAGE>" ++
      helpTable "Arguments" [([.plain "<MESSAGE>"], "The message to send")] ++
      optionTable env topic
  | .command name =>
    usage name.about ("hearth " ++ name.word) "[OPTIONS]" ++ optionTable env topic
  | .help =>
    usage helpAbout "hearth help" "[COMMAND]..." ++
      helpTable "Arguments" [([.plain "[COMMAND]..."], "Print help for the subcommand(s)")]

/-- The variable that forces styles, whatever it holds but nothing. -/
def styleVariable : String := "CLICOLOR_FORCE"

/-- The variable that forbids styles, whatever it holds but nothing. -/
def plainVariable : String := "NO_COLOR"

/-- Whether the output is styled though it is no terminal. -/
def Environment.forcesStyles (env : Environment) : Bool :=
  let isSet (name : String) : Bool := (env.get? name).any (!·.isEmpty)
  isSet styleVariable && !isSet plainVariable

/-- A styled text as it leaves the program. -/
def Environment.present (env : Environment) (t : StyledText) : String :=
  if env.forcesStyles then t.render else plain t.render

end ChatStream
