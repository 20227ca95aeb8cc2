import Switchboard.Bot.Dispatch
import Switchboard.Console.Arguments
import Switchboard.Plugin.Loading

/-!
A session of the console: a bot is started, and every line of the input is dispatched as a message
of one caller.
-/
namespace Switchboard.Console

/-- The bot of a session, with the plugins loaded that the configuration chooses from what was found
at the path of their directory. -/
def start (config : Config) (file : StateFile)
    (place : Except Obstacle (Option Plugin.Directory)) : Except Failure Bot :=
  let bot : Bot := { config, store := { file } }
  let loading : BotM Unit := do
    match config.pluginsDir with
    | none => return
    | some path =>
      let directory ← MonadExcept.ofExcept (Plugin.Directory.found path place)
      discard (Plugin.load directory config.plugins)
  let (result, bot) := loading.run bot.withBuiltins
  result.map fun _ => bot

/-- How a part of a reply is printed. -/
def print : Segment → String
  | .text s => s ++ "\n"
  | .media bytes => "[media: " ++ toString bytes.length ++ " bytes]\n"

/-- Dispatches one line with what a bot relies on, and gives what is printed in reply. -/
def answerWith (services : Services) (caller : CallerId) (bot : Bot) (line : String) :
    String × Bot :=
  let (_, bot) := (services.run { text := line, caller }).run bot
  let printed := String.join (bot.outbox.replies.map fun reply => print reply.segment)
  (printed, { bot with outbox := { bot.outbox with replies := [] } })

/-- Dispatches one line, and gives what is printed in reply. -/
def answer : CallerId → Bot → String → String × Bot :=
  answerWith Bot.services

/-- Dispatches lines one after the other, and gives all that is printed in reply. -/
def answerLines (services : Services) (caller : CallerId) (bot : Bot) (lines : List String) :
    String × Bot :=
  let step (state : String × Bot) (line : String) : String × Bot :=
    let (printed, bot) := answerWith services caller state.2 line
    (state.1 ++ printed, bot)
  lines.foldl step ("", bot)

/-- Dispatches the lines of an input, and gives all that is printed in reply. -/
def answerAll (caller : CallerId) (bot : Bot) (input : String) : String :=
  (answerLines Bot.services caller bot (Text.lines input)).1

def note (event : Event) : String :=
  event.severity.name ++ " " ++ event.name

/-- What is printed about a failure to start; only faults of the configuration are told. -/
def complaint? : Failure → Option String
  | .invalidConfig text => some ("Failed to load config: " ++ text ++ "\n")
  | _ => none

/-- What is printed when a session cannot be started, and the exit code. -/
def refusal (failure : Failure) : String × UInt32 :=
  match complaint? failure with
  | some text => (text, 2)
  | none => (failure.description ++ "\n", 1)

end Switchboard.Console
