import HttpCerver.Process.Calls

/-!
# The listening server

The model of `server.c`: the listening socket and the document root are opened,
the socket is bound to the loopback address and listens, connections are
accepted with a receive timeout, and what was opened is closed again.
-/

namespace HttpCerver.Listening

open HttpCerver.Bytes
open HttpCerver.Calls
open HttpCerver.Config
open HttpCerver.Programs
open HttpCerver.Programs.Program
open HttpCerver.System

/-- `server_t`. -/
structure Server where
  fd : Option Fd
  rootFd : Option Fd
  port : ℕ
  backlog : ℕ
  deriving DecidableEq

/-- Opens the socket and the document root; the socket is closed again when
there is no root. -/
def serverInit (config : ServerConfig) : Code (ReturnCode × Server) := do
  let server : Server :=
    { fd := none, rootFd := none, port := config.port
      backlog := config.backlog }
  let fd : Option Fd ← ask .socket
  let server := { server with fd := fd }
  if server.fd = none then
    return (.failure, server)
  let rootFd : Option Fd ← ask (.openDirectory config.documentRoot)
  let server := { server with rootFd := rootFd }
  if server.rootFd = none then
    ask (.close server.fd)
    return (.failure, { server with fd := none })
  return (.success, server)

/-- Binds the socket to the loopback address and listens. -/
def serverStart (server : Server) : Code ReturnCode := do
  match inetPton (ascii "127.0.0.1") with
  | none => return .failure
  | some address =>
    let bound : ReturnCode ← ask (.bind server.fd
      { address := address, port := htons server.port })
    if bound = .failure then
      return .failure
    let listening : ReturnCode ← ask (.listen server.fd server.backlog)
    if listening = .failure then
      return .failure
    return .success

/-- Accepts a connection and limits how long it may keep silent. -/
def serverAccept (server : Server) (clientTimeout : ℕ) : Code (Option Fd) := do
  let clientFd : Option Fd ← ask (.accept server.fd)
  if clientFd = none then
    return none
  let limited : ReturnCode ← ask (.setReceiveTimeout clientFd clientTimeout)
  if limited = .failure then
    ask (.close clientFd)
    return none
  return clientFd

/-- Closes what is open. -/
def serverDestroy (server : Server) : Code Server := do
  let server ←
    if server.fd ≠ none then do
      ask (.close server.fd)
      pure { server with fd := none }
    else pure server
  if server.rootFd ≠ none then do
    ask (.close server.rootFd)
    pure { server with rootFd := none }
  else pure server

end HttpCerver.Listening
