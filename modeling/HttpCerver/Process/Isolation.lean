import HttpCerver.Process.Completion
import HttpCerver.Stream.Secrecy
import HttpCerver.Stream.Startup
import HttpCerver.Stream.Reading

/-!
# One client among many

What the other clients do, and in which order the processes take their steps,
makes no difference to a client: it gets what it would get alone.  So what
holds of the connection handler holds of the server as it runs.
-/

namespace HttpCerver.Isolation

open HttpCerver.Bytes
open HttpCerver.Calls
open HttpCerver.Completion
open HttpCerver.Config
open HttpCerver.Forking
open HttpCerver.Framed
open HttpCerver.Http
open HttpCerver.Interleaving
open HttpCerver.Machines
open HttpCerver.Machines.Machine
open HttpCerver.Main
open HttpCerver.Paths
open HttpCerver.Protocol
open HttpCerver.Reading
open HttpCerver.Reaping
open HttpCerver.Reference
open HttpCerver.Replies
open HttpCerver.Secrecy
open HttpCerver.Service
open HttpCerver.Startup
open HttpCerver.System
open HttpCerver.Truncation
open HttpCerver.Visits

section Clients

variable {host : Host} {argv : List CString} {schedule : List Action}
variable {daemon : Daemon} {id : ℕ} {client : Client}

/-- Isolation: the k-th client to connect is served by one child at most.  In
any order of steps it is sent the beginning of what it would be sent alone, and
when its handler has returned, all of it, with the same result. -/
theorem isolation
    (hrun : (daemonMachine host).run (boot host argv) schedule = some daemon)
    (hclient : (schedule.flatMap newcomers)[id]? = some client) :
    (daemon.children.map (·.serves)).Nodup ∧
      sentTo daemon id <+:
        written (handledAlone host (configured argv) client).2.trace ∧
      ∀ child ∈ daemon.children, child.serves = some id →
        ∀ result, child.handled = some result →
          result = handledAlone host (configured argv) client ∧
            sentTo daemon id = written result.2.trace := by
  obtain ⟨phase, view, hrepresents, -⟩ := represents_of_run hrun
  exact ⟨hrepresents.distinct, sentTo_of_run hrun hclient⟩

theorem isolation_pair :
    ∃ schedule daemon, (daemonMachine smallHost).run (boot smallHost [])
        (gathering [visitor, caller] ++ schedule) = some daemon ∧
      (daemon.children.map (·.serves)).Nodup ∧
      sentTo daemon 0 =
        written (handledAlone smallHost (configured []) visitor).2.trace := by
  obtain ⟨schedule, first, daemon, hdrains, hstuck, haccepted, hreturns⟩ :=
    exists_drains [visitor, caller]
  have hvisitor : ((gathering [visitor, caller] ++ schedule).flatMap
      newcomers)[0]? = some visitor := by
    rw [hdrains.nobody_new]
    rfl
  obtain ⟨child, hchild, hserves, hhandled⟩ := hdrains.handled hstuck
    haccepted.le rfl (unhindered_of_run hdrains.whole hreturns 0)
  obtain ⟨hdistinct, -, hall⟩ := isolation hdrains.whole hvisitor
  obtain ⟨result, hresult⟩ := Option.isSome_iff_exists.mp hhandled
  obtain ⟨hsame, hsent⟩ := hall child hchild hserves result hresult
  rw [hsame] at hsent
  exact ⟨schedule, daemon, hdrains.whole, hdistinct, hsent⟩

/-- The root that a child serves from. -/
theorem inheritedRoot_childDescriptors (host : Host) (config : ServerConfig)
    (client : Client) :
    inheritedRoot (rootFd host) (childDescriptors host config client) =
      some (host.directoryInode config.documentRoot) := by
  obtain ⟨hroot, -⟩ := clientFd_ne host config
  simp [inheritedRoot, childDescriptors, hroot]

/-- The inode of the document root. -/
def siteRoot (host : Host) (argv : List CString) : Inode :=
  host.directoryInode (configured argv).documentRoot

/-- With an invalid configuration nobody is sent anything. -/
theorem sentTo_of_invalid
    (hinvalid : httpConfigValid (configured argv) = false)
    (hrun : (daemonMachine host).run (boot host argv) schedule = some daemon)
    (hclient : (schedule.flatMap newcomers)[id]? = some client) :
    sentTo daemon id = [] := by
  have hnothing : written (handledAlone host (configured argv)
      client).2.trace = [] :=
    output_of_invalid hinvalid (rootFd host) client.environment
      (childDescriptors host (configured argv) client)
  have hbegins := (sentTo_of_run hrun hclient).1
  rw [hnothing] at hbegins
  exact List.prefix_nil.mp hbegins

/-- At any moment a client has been sent the beginning of the reference of its
own stream, whatever calls have failed. -/
theorem sentTo_begins_reference
    (hrun : (daemonMachine host).run (boot host argv) schedule = some daemon)
    (hclient : (schedule.flatMap newcomers)[id]? = some client) {site : Tree}
    (hsystem : client.environment.fileSystem = fun _ => site.fileSystem) :
    sentTo daemon id <+: reference (configured argv) site
      (some (siteRoot host argv)) client.environment.incoming := by
  cases hconfig : httpConfigValid (configured argv) with
  | true =>
      have hbeginning := output_begins hconfig hsystem (rootFd host)
        (childDescriptors host (configured argv) client)
      rw [inheritedRoot_childDescriptors] at hbeginning
      exact (sentTo_of_run hrun hclient).1.trans hbeginning
  | false =>
      rw [sentTo_of_invalid hconfig hrun hclient]
      exact List.nil_prefix

/-- No client is misled: at any moment, in any order of steps and whatever
calls have failed, a client that reads by the declared lengths has received the
first replies to its own requests, each of them whole, and what it has got of
the next one is its beginning. -/
theorem no_client_misled
    (hrun : (daemonMachine host).run (boot host argv) schedule = some daemon)
    (hclient : (schedule.flatMap newcomers)[id]? = some client) {site : Tree}
    (hsystem : client.environment.fileSystem = fun _ => site.fileSystem) :
    ∃ count rest,
      receive (responseFramers (requests (configured argv)
          client.environment.incoming).1) (sentTo daemon id) =
        ((repliesTo (configured argv) site (some (siteRoot host argv))
          client.environment.incoming).map Reply.bytes).take count ∧
      sentTo daemon id =
        (((repliesTo (configured argv) site (some (siteRoot host argv))
          client.environment.incoming).map Reply.bytes).take count).flatten ++
            rest ∧
      rest <+: ((repliesTo (configured argv) site (some (siteRoot host argv))
        client.environment.incoming).map Reply.bytes).getD count [] :=
  receive_reference (sentTo_begins_reference hrun hclient hsystem)

/-- A visitor that breaks off in the first answer. -/
def breaking : Client where
  environment := { pipelined with sends := [.accept 30, .fail (.other 104)] }
  inode := 14

theorem no_client_misled_breaking :
    ∃ schedule daemon, (daemonMachine smallHost).run (boot smallHost [])
        (gathering [breaking, caller] ++ schedule) = some daemon ∧
      ∃ count rest,
        receive (responseFramers (requests (configured [])
            pipelined.incoming).1) (sentTo daemon 0) =
          ((repliesTo (configured []) smallTree (some 0)
            pipelined.incoming).map Reply.bytes).take count ∧
        sentTo daemon 0 =
          (((repliesTo (configured []) smallTree (some 0)
            pipelined.incoming).map Reply.bytes).take count).flatten ++ rest ∧
        rest <+: ((repliesTo (configured []) smallTree (some 0)
          pipelined.incoming).map Reply.bytes).getD count [] := by
  obtain ⟨schedule, first, daemon, hdrains, -⟩ :=
    exists_drains [breaking, caller]
  have hbreaking : ((gathering [breaking, caller] ++ schedule).flatMap
      newcomers)[0]? = some breaking := by
    rw [hdrains.nobody_new]
    rfl
  have hsystem : breaking.environment.fileSystem =
      fun _ => smallTree.fileSystem := rfl
  exact ⟨schedule, daemon, hdrains.whole,
    no_client_misled hdrains.whole hbreaking hsystem⟩

/-- A client that is not disturbed has been sent all of the reference when its
handler has returned and no allocation has failed. -/
theorem sentTo_eq_reference
    (hconfig : httpConfigValid (configured argv) = true)
    (hrun : (daemonMachine host).run (boot host argv) schedule = some daemon)
    (hclient : (schedule.flatMap newcomers)[id]? = some client) {site : Tree}
    (hundisturbed : Undisturbed site client.environment)
    (hmallocs : false ∉ client.environment.mallocs)
    (hhandled : ∃ child ∈ daemon.children, child.serves = some id ∧
      child.handled.isSome = true) :
    sentTo daemon id = reference (configured argv) site
      (some (siteRoot host argv)) client.environment.incoming := by
  obtain ⟨-, hall⟩ := sentTo_of_run hrun hclient
  have houtput := (output_eq hconfig hundisturbed (rootFd host)
    (childDescriptors host (configured argv) client)).2 hmallocs
  rw [inheritedRoot_childDescriptors] at houtput
  obtain ⟨child, hchild, hserves, hresult⟩ := hhandled
  obtain ⟨result, hresult⟩ := Option.isSome_iff_exists.mp hresult
  obtain ⟨hresult, hsent⟩ := hall child hchild hserves result hresult
  rw [hsent, hresult]
  exact houtput

/-- Service: once no more clients come and the calls of the server succeed, a
client in the queue that is not disturbed is sent the reference of its own
stream piece by piece, and has been sent all of it when nothing is left to do
and the calls made for it have returned, whatever the other clients are like
and whether or not the calls made for them return. -/
theorem service {past : List Action} {later : Daemon}
    (hconfig : httpConfigValid (configured argv) = true)
    (hdrains : Drains host argv past schedule daemon later)
    (hid : daemon.network.accepted.length ≤ id)
    (hclient : (past.flatMap newcomers)[id]? = some client) {site : Tree}
    (hundisturbed : Undisturbed site client.environment)
    (hmallocs : false ∉ client.environment.mallocs) :
    sentTo later id <+: reference (configured argv) site
        (some (siteRoot host argv)) client.environment.incoming ∧
      (Stuck host later → Unhindered later id →
        sentTo later id = reference (configured argv) site
          (some (siteRoot host argv)) client.environment.incoming) := by
  have hconnected := hclient
  rw [← hdrains.nobody_new] at hconnected
  exact ⟨sentTo_begins_reference hdrains.whole hconnected
      hundisturbed.fileSystem,
    fun hstuck hreturns => sentTo_eq_reference hconfig hdrains.whole
      hconnected hundisturbed hmallocs
      (hdrains.handled hstuck hid hclient hreturns)⟩

theorem service_pair :
    ∃ schedule daemon, (daemonMachine smallHost).run (boot smallHost [])
        (gathering [visitor, caller] ++ schedule) = some daemon ∧
      sentTo daemon 0 =
        reference (configured []) smallTree (some 0) pipelined.incoming := by
  obtain ⟨schedule, first, daemon, hdrains, hstuck, haccepted, hreturns⟩ :=
    exists_drains [visitor, caller]
  have hconfig : httpConfigValid (configured []) = true := by decide +kernel
  have hvisitor : ((gathering [visitor, caller]).flatMap newcomers)[0]? =
      some visitor := rfl
  have hserved := service hconfig hdrains
    haccepted.le hvisitor
    undisturbed_pipelined (by simp [visitor, pipelined])
  exact ⟨schedule, daemon, hdrains.whole,
    hserved.2 hstuck (unhindered_of_run hdrains.whole hreturns 0)⟩

/-- Confidentiality: two clients with the same stream, in two runs over file
systems that are the same beneath the document root, are sent the same, up to
where a call fails.  So nothing else in the file system can be learnt from the
server, whatever the other clients do. -/
theorem confidentiality {schedule' : List Action} {daemon' : Daemon} {id' : ℕ}
    {client' : Client} {tree tree' : DocumentTree} {site site' : Tree}
    (hsame : SameSite tree tree' site site' (siteRoot host argv))
    (hrun : (daemonMachine host).run (boot host argv) schedule = some daemon)
    (hclient : (schedule.flatMap newcomers)[id]? = some client)
    (hsystem : client.environment.fileSystem = fun _ => site.fileSystem)
    (hrun' : (daemonMachine host).run (boot host argv) schedule' =
      some daemon')
    (hclient' : (schedule'.flatMap newcomers)[id']? = some client')
    (hsystem' : client'.environment.fileSystem = fun _ => site'.fileSystem)
    (hincoming : client'.environment.incoming =
      client.environment.incoming) :
    (sentTo daemon id <+: sentTo daemon' id' ∨
      sentTo daemon' id' <+: sentTo daemon id) ∧
    (Undisturbed site client.environment →
      Undisturbed site' client'.environment →
      false ∉ client.environment.mallocs →
      false ∉ client'.environment.mallocs →
      (∃ child ∈ daemon.children, child.serves = some id ∧
        child.handled.isSome = true) →
      (∃ child ∈ daemon'.children, child.serves = some id' ∧
        child.handled.isSome = true) →
      sentTo daemon id = sentTo daemon' id') := by
  have hreply : reference (configured argv) site' (some (siteRoot host argv))
      client'.environment.incoming =
        reference (configured argv) site (some (siteRoot host argv))
          client.environment.incoming := by
    rw [hincoming, hsame.same_reference]
  have hbegins := sentTo_begins_reference hrun hclient hsystem
  have hbegins' := sentTo_begins_reference hrun' hclient' hsystem'
  rw [hreply] at hbegins'
  refine ⟨List.prefix_or_prefix_of_prefix hbegins hbegins', ?_⟩
  intro hundisturbed hundisturbed' hmallocs hmallocs' hhandled hhandled'
  cases hconfig : httpConfigValid (configured argv) with
  | true =>
      rw [sentTo_eq_reference hconfig hrun hclient hundisturbed hmallocs
          hhandled,
        sentTo_eq_reference hconfig hrun' hclient' hundisturbed' hmallocs'
          hhandled', hreply]
  | false =>
      rw [sentTo_of_invalid hconfig hrun hclient,
        sentTo_of_invalid hconfig hrun' hclient']

/-- The visitor over another site. -/
def visitorOf (site : Tree) : Client where
  environment := { pipelined with fileSystem := fun _ => site.fileSystem }
  inode := 14

theorem undisturbed_visitorOf (site : Tree) :
    Undisturbed site (visitorOf site).environment where
  fileSystem := rfl
  sends := undisturbed_pipelined.sends
  recvs := undisturbed_pipelined.recvs

theorem confidentiality_guarded :
    ∃ schedule schedule' daemon daemon',
      (daemonMachine smallHost).run (boot smallHost [])
        (gathering [visitorOf publicSite, caller] ++ schedule) =
          some daemon ∧
      (daemonMachine smallHost).run (boot smallHost [])
        (gathering [caller, visitorOf guardedSite] ++ schedule') =
          some daemon' ∧
      sentTo daemon 0 = sentTo daemon' 1 := by
  obtain ⟨schedule, first, daemon, hdrains, hstuck, haccepted, hreturns⟩ :=
    exists_drains [visitorOf publicSite, caller]
  obtain ⟨schedule', first', daemon', hdrains', hstuck', haccepted',
    hreturns'⟩ := exists_drains [caller, visitorOf guardedSite]
  have hvisitor : ((gathering [visitorOf publicSite, caller]).flatMap
      newcomers)[0]? = some (visitorOf publicSite) := rfl
  have hvisitor' : ((gathering [caller, visitorOf guardedSite]).flatMap
      newcomers)[1]? = some (visitorOf guardedSite) := rfl
  have hhandled := hdrains.handled hstuck haccepted.le hvisitor
    (unhindered_of_run hdrains.whole hreturns 0)
  have hhandled' := hdrains'.handled hstuck'
    (haccepted'.le.trans (Nat.zero_le 1)) hvisitor'
    (unhindered_of_run hdrains'.whole hreturns' 1)
  rw [← hdrains.nobody_new] at hvisitor
  rw [← hdrains'.nobody_new] at hvisitor'
  obtain ⟨-, hsent⟩ := confidentiality sameSite_guardedSite hdrains.whole
    hvisitor rfl hdrains'.whole hvisitor' rfl rfl
  have hmallocs (site : Tree) :
      false ∉ (visitorOf site).environment.mallocs := List.not_mem_nil
  exact ⟨schedule, schedule', daemon, daemon', hdrains.whole, hdrains'.whole,
    hsent (undisturbed_visitorOf _) (undisturbed_visitorOf _) (hmallocs _)
      (hmallocs _) hhandled hhandled'⟩

/-- A server whose command line was accepted beyond the limits of the parser
takes its clients up, and answers none of them. -/
theorem mute {config : ServerConfig}
    (haccepted : configParseArgs configInit argv = (.success, config))
    (hbeyond : ¬ WithinLimits argv)
    (hrun : (daemonMachine host).run (boot host argv) schedule = some daemon)
    (hclient : (schedule.flatMap newcomers)[id]? = some client) :
    sentTo daemon id = [] := by
  have hinvalid : httpConfigValid (configured argv) = false := by
    rw [configured, haccepted, ← Bool.not_eq_true,
      httpConfigValid_configParseArgs haccepted]
    exact hbeyond
  exact sentTo_of_invalid hinvalid hrun hclient

theorem mute_raised :
    ∃ daemon, (daemonMachine smallHost).run (boot smallHost raisedArgv)
        (welcoming [visitor, caller] ++ List.replicate 3 (.child 0 true)) =
          some daemon ∧
      daemon.children.map (·.serves) = [some 0] ∧
      daemon.children.map (·.handled.map (·.1)) = [some .failure] ∧
      sentTo daemon 0 = [] := by
  have haccepted : configParseArgs configInit raisedArgv =
      (.success, { configInit with httpMaxHeaders := 65 }) := by
    decide +kernel
  have hbeyond : ¬ WithinLimits raisedArgv := by
    rw [← httpConfigValid_configParseArgs haccepted]
    decide
  have hrun : ∃ daemon, (daemonMachine smallHost).run
      (boot smallHost raisedArgv)
        (welcoming [visitor, caller] ++ List.replicate 3 (.child 0 true)) =
          some daemon ∧
      daemon.children.map (·.serves) = [some 0] ∧
      daemon.children.map (·.handled.map (·.1)) = [some .failure] := by
    rw [boot, main, haccepted]
    exact ⟨_, rfl, rfl, rfl⟩
  obtain ⟨daemon, hrun, hchildren, hhandled⟩ := hrun
  exact ⟨daemon, hrun, hchildren, hhandled, mute haccepted hbeyond hrun rfl⟩

end Clients

end HttpCerver.Isolation
