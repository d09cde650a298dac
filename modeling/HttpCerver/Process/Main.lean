import HttpCerver.Config.Options
import HttpCerver.Process.Listening

/-!
# The main program

The model of `main.c`: the server is set up from the command line and then
accepts connections for ever, each of which is handled by a child of its own.
`fork` answers twice, so the child's program is part of the same text.
-/

namespace HttpCerver.Main

open HttpCerver.Bytes
open HttpCerver.Calls
open HttpCerver.Config
open HttpCerver.Listening
open HttpCerver.Programs
open HttpCerver.Programs.Program
open HttpCerver.System

/-- How a round of `main` ends: the loop goes round again, or the process
exits. -/
inductive Next
  | again (server : Server) (config : ServerConfig)
  | exit (code : ReturnCode)

/-- `main` up to its loop. -/
def main (argv : List CString) : Code Next := do
  let installed : ReturnCode ← ask .sigaction
  if installed = .failure then
    return .exit .failure
  let (parsed, config) := configParseArgs configInit argv
  if parsed = .failure then
    return .exit .failure
  let (initialised, server) ← serverInit config
  if initialised = .failure then
    return .exit .failure
  let started ← serverStart server
  if started = .failure then
    let _ ← serverDestroy server
    return .exit .failure
  return .again server config

/-- One round of the loop of `main`. -/
def mainRound (server : Server) (config : ServerConfig) : Code Next := do
  let clientFd ← serverAccept server config.clientTimeout
  if clientFd = none then
    return .again server config
  let forked : Forked ← ask .fork
  match forked with
  | .failed =>
    ask (.close clientFd)
    return .again server config
  | .child =>
    ask (.close server.fd)
    let handled : ReturnCode ←
      ask (.handleConnection clientFd server.rootFd config)
    if handled = .failure then
      ask (.close clientFd)
      return .exit .failure
    ask (.close clientFd)
    return .exit .success
  | .parent =>
    ask (.close clientFd)
    return .again server config

end HttpCerver.Main
