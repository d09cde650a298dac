import HttpCerver.Config.Options
import HttpCerver.Stream.Reference

/-!
# The command line and the limits of the parser

`config_parse_args` accepts every size below `INT_MAX`; `http_config_valid`
allows the header limits to be lowered only.  The two agree on a command line
just when the last value it gives for each limit is within the parser's
tables; on any other that is accepted, no client is ever answered.
-/

namespace HttpCerver.Startup

open HttpCerver.Bytes
open HttpCerver.Config
open HttpCerver.Connection
open HttpCerver.ForkServer
open HttpCerver.Http
open HttpCerver.Iteration
open HttpCerver.Numerals
open HttpCerver.Options
open HttpCerver.Reference
open HttpCerver.Request
open HttpCerver.Sessions
open HttpCerver.System

/-- The options of a command line and their values. -/
def pairsOf : List CString → List (CString × CString)
  | option :: value :: rest => (option, value) :: pairsOf rest
  | _ => []

/-- The number that `strtoull` reads from the last value of an option. -/
def lastNumber (name : List Byte) : List (CString × CString) → Option ℕ
  | [] => none
  | (option, value) :: rest =>
    match lastNumber name rest with
    | some number => some number
    | none =>
      if option.bytes = name then some (strtoull value.bytes).value else none

/-- No limit ends up above what the parser has room for. -/
def WithinLimits (argv : List CString) : Prop :=
  (∀ number, lastNumber (ascii "--max-headers") (pairsOf argv.tail) =
    some number → number ≤ httpMaxHeaders) ∧
  (∀ number, lastNumber (ascii "--header-name-max") (pairsOf argv.tail) =
    some number → number ≤ httpHeaderNameMax) ∧
  ∀ number, lastNumber (ascii "--header-value-max") (pairsOf argv.tail) =
    some number → number ≤ httpHeaderValueMax

/-- The options that store a size. -/
inductive SizeOption
  | httpBufferSize
  | maxHeaders
  | headerNameMax
  | headerValueMax

def SizeOption.name : SizeOption → List Byte
  | .httpBufferSize => ascii "--http-buffer-size"
  | .maxHeaders => ascii "--max-headers"
  | .headerNameMax => ascii "--header-name-max"
  | .headerValueMax => ascii "--header-value-max"

/-- Where the size is stored. -/
def SizeOption.get : SizeOption → ServerConfig → ℕ
  | .httpBufferSize, config => config.httpBufferSize
  | .maxHeaders, config => config.httpMaxHeaders
  | .headerNameMax, config => config.httpHeaderNameMax
  | .headerValueMax, config => config.httpHeaderValueMax

theorem parsePositiveSize_eq_some {value : CString} {number : ℕ}
    (hparse : parsePositiveSize value = some number) :
    number = (strtoull value.bytes).value ∧ 0 < number := by
  simp only [parsePositiveSize] at hparse
  split_ifs at hparse with hrefused
  cases hparse
  simp only [not_or] at hrefused
  exact ⟨rfl, by omega⟩

/-- An accepted pair stores its value where its option says. -/
theorem applyOption_get {option value : CString} {config next : ServerConfig}
    (happlied : applyOption option value config = some next)
    (size : SizeOption) :
    (option.bytes = size.name ∧ size.get next = (strtoull value.bytes).value ∧
        0 < size.get next) ∨
      option.bytes ≠ size.name ∧ size.get next = size.get config := by
  rw [applyOption] at happlied
  split_ifs at happlied with hport hbacklog htimeout hroot hbuffer hmax hname
    hvalue
  · obtain ⟨port, -, hstored⟩ := Option.bind_eq_some_iff.mp happlied
    split_ifs at hstored
    cases hstored
    rw [hport]
    cases size <;> exact .inr ⟨by decide, rfl⟩
  · obtain ⟨number, -, rfl⟩ := Option.map_eq_some_iff.mp happlied
    rw [hbacklog]
    cases size <;> exact .inr ⟨by decide, rfl⟩
  · obtain ⟨number, -, rfl⟩ := Option.map_eq_some_iff.mp happlied
    rw [htimeout]
    cases size <;> exact .inr ⟨by decide, rfl⟩
  · cases happlied
    rw [hroot]
    cases size <;> exact .inr ⟨by decide, rfl⟩
  all_goals
    obtain ⟨number, hparse, rfl⟩ := Option.map_eq_some_iff.mp happlied
    obtain ⟨hnumber, hpos⟩ := parsePositiveSize_eq_some hparse
  · rw [hbuffer]
    cases size with
    | httpBufferSize => exact .inl ⟨rfl, hnumber, hpos⟩
    | _ => exact .inr ⟨by decide, rfl⟩
  · rw [hmax]
    cases size with
    | maxHeaders => exact .inl ⟨rfl, hnumber, hpos⟩
    | _ => exact .inr ⟨by decide, rfl⟩
  · rw [hname]
    cases size with
    | headerNameMax => exact .inl ⟨rfl, hnumber, hpos⟩
    | _ => exact .inr ⟨by decide, rfl⟩
  · rw [hvalue]
    cases size with
    | headerValueMax => exact .inl ⟨rfl, hnumber, hpos⟩
    | _ => exact .inr ⟨by decide, rfl⟩

/-- The pairs of a command line, one after the other. -/
def applyAll (pairs : List (CString × CString)) (config : ServerConfig) :
    Option ServerConfig :=
  pairs.foldlM (fun config pair => applyOption pair.1 pair.2 config) config

/-- The last value of an option is the one that counts. -/
theorem applyAll_get {pairs : List (CString × CString)}
    {config final : ServerConfig} (happlied : applyAll pairs config = some final)
    (size : SizeOption) :
    size.get final = (lastNumber size.name pairs).getD (size.get config) ∧
      (0 < size.get config → 0 < size.get final) := by
  induction pairs generalizing config with
  | nil =>
      cases happlied
      exact ⟨rfl, id⟩
  | cons pair pairs ih =>
      rw [applyAll, List.foldlM_cons] at happlied
      obtain ⟨next, hnext, hrest⟩ := Option.bind_eq_some_iff.mp happlied
      obtain ⟨hlast, hpos⟩ := ih hrest
      rw [hlast, lastNumber]
      obtain ⟨hsame, hvalue, hstored⟩ | ⟨hother, hkept⟩ :=
        applyOption_get hnext size
      · refine ⟨?_, fun _ => hlast ▸ hpos hstored⟩
        cases lastNumber size.name pairs with
        | some number => rfl
        | none => simp [hsame, hvalue]
      · rw [hkept] at hpos ⊢
        refine ⟨?_, fun h => hkept ▸ hlast ▸ hpos h⟩
        cases lastNumber size.name pairs with
        | some number => rfl
        | none => simp [hother]

theorem pairsOf_spell (pairs : List ArgPair) : pairsOf (spell pairs) = pairs := by
  induction pairs with
  | nil => rfl
  | cons pair pairs ih =>
      rw [show spell (pair :: pairs) = pair.1 :: pair.2 :: spell pairs from rfl,
        pairsOf, ih]

/-- A command line that is accepted applies its pairs in order. -/
theorem applyAll_of_configParseArgs {argv : List CString}
    {config final : ServerConfig}
    (haccepted : configParseArgs config argv = (.success, final)) :
    applyAll (pairsOf argv.tail) config = some final := by
  obtain ⟨pairs, hspelled, htaken⟩ :=
    configParseArgs_eq_success_iff.mp haccepted
  rw [hspelled, pairsOf_spell]
  exact htaken

/-- A limit is in range just when its last value is, given a default that
is. -/
theorem getD_le_iff {number : Option ℕ} {start bound : ℕ}
    (hstart : start ≤ bound) :
    number.getD start ≤ bound ↔ ∀ value, number = some value → value ≤ bound := by
  cases number with
  | none => simpa using hstart
  | some value => simp

theorem get_le_iff {pairs : List (CString × CString)} {final : ServerConfig}
    (happlied : applyAll pairs configInit = some final) (size : SizeOption)
    {bound : ℕ} (hstart : size.get configInit ≤ bound) :
    size.get final ≤ bound ↔
      ∀ number, lastNumber size.name pairs = some number → number ≤ bound := by
  rw [(applyAll_get happlied size).1, getD_le_iff hstart]

/-- The two validators agree within the limits. -/
theorem httpConfigValid_configParseArgs {argv : List CString}
    {final : ServerConfig}
    (haccepted : configParseArgs configInit argv = (.success, final)) :
    httpConfigValid final = true ↔ WithinLimits argv := by
  have happlied := applyAll_of_configParseArgs haccepted
  have hpos : ∀ size : SizeOption, 0 < size.get final := fun size =>
    (applyAll_get happlied size).2 (by cases size <;> decide)
  have hmax := get_le_iff happlied .maxHeaders
    (show _ ≤ httpMaxHeaders by decide)
  have hname := get_le_iff happlied .headerNameMax
    (show _ ≤ httpHeaderNameMax by decide)
  have hvalue := get_le_iff happlied .headerValueMax
    (show _ ≤ httpHeaderValueMax by decide)
  rw [httpConfigValid_iff]
  constructor
  · rintro ⟨-, ⟨-, hmaxLe⟩, ⟨-, hnameLe⟩, -, hvalueLe⟩
    exact ⟨hmax.mp hmaxLe, hname.mp hnameLe, hvalue.mp hvalueLe⟩
  · rintro ⟨hmaxLe, hnameLe, hvalueLe⟩
    exact ⟨hpos .httpBufferSize, ⟨hpos .maxHeaders, hmax.mpr hmaxLe⟩,
      ⟨hpos .headerNameMax, hname.mpr hnameLe⟩, hpos .headerValueMax,
      hvalue.mpr hvalueLe⟩

/-- With an invalid configuration the first bytes of a client end its
connection, and a receive is all that happens. -/
theorem forkServerReceive_of_invalid {config : ServerConfig}
    (hinvalid : httpConfigValid config = false) (rootFd : Fd)
    {connection : HttpConnection} (w : World)
    (hopen : connection.closeConnection = false)
    (hcapacity : connection.bufferCapacity = config.httpBufferSize)
    (hspace : connection.pending.length < config.httpBufferSize) :
    match forkServerReceive rootFd config (connection, w) with
    | .inl (next, w') => next = connection ∧
        w'.trace = w.trace ++ [.recv] ∧ w'.descriptors = w.descriptors
    | .inr (_, w') =>
        w'.trace = w.trace ++ [.recv] ∧ w'.descriptors = w.descriptors := by
  have hwindow := receiveCapacity_eq hcapacity
  have hfree : window config connection.pending ≠ 0 := by
    rw [window, receiveBufferSize]
    omega
  have hreceipt := recv_spec (window config connection.pending) w
  simp only [forkServerReceive, hopen, hwindow, hfree, if_false]
  generalize recv (window config connection.pending) w = result
    at hreceipt
  cases hreceipt with
  | @failed errno recvs hrecvs =>
      dsimp only
      by_cases herrno : errno = .eintr
      · rw [if_pos herrno]
        exact ⟨rfl, rfl, rfl⟩
      · rw [if_neg herrno]
        exact ⟨rfl, rfl⟩
  | @received bytes rest recvs hincoming hbound hempty hrecvs =>
      dsimp only
      by_cases hbytes : bytes = []
      · rw [if_pos hbytes]
        exact ⟨rfl, rfl⟩
      · have hfits : bytes.length ≤
            connection.bufferCapacity - connection.pending.length := by
          rw [hcapacity]
          exact hbound.trans (Nat.min_le_left _ _)
        obtain ⟨fed, hfed, -⟩ := httpConnectionFeed_eq_some hfits
        rw [if_neg hbytes]
        simp [hfed, httpProcessConnection, hinvalid, log]

/-- With an invalid configuration a connection consists of receives. -/
theorem forkServerHandleConnection_of_invalid {config : ServerConfig}
    (hinvalid : httpConfigValid config = false) (rootFd : Fd)
    (environment : Environment) (inherited : List (Fd × Inode)) :
    ∃ count,
      (forkServerHandleConnection rootFd config
        (start environment inherited)).2.trace =
          List.replicate count .recv ∧
      (forkServerHandleConnection rootFd config
        (start environment inherited)).2.descriptors =
          (start environment inherited).descriptors := by
  by_cases hsize : config.httpBufferSize = 0
  · refine ⟨0, ?_⟩
    simp [forkServerHandleConnection, httpConnectionInit, hsize, start]
  obtain ⟨mallocs, -, ⟨connection, hinit, hpending, hcapacity, hopen⟩ |
    ⟨-, hinit⟩⟩ := httpConnectionInit_spec hsize
      (start environment inherited)
  · have hspace : connection.pending.length < config.httpBufferSize := by
      rw [hpending]
      exact Nat.pos_of_ne_zero hsize
    have hrun := (forkServerLoop rootFd config).run_invariant
      (fun state => state.1 = connection ∧ ∃ count,
        state.2.trace = List.replicate count .recv ∧
        state.2.descriptors = (start environment inherited).descriptors)
      (fun result => ∃ count,
        result.2.trace = List.replicate count .recv ∧
        result.2.descriptors = (start environment inherited).descriptors)
      ?_ ?_
      (connection, { start environment inherited with mallocs := mallocs })
      ⟨rfl, 0, rfl, rfl⟩
    · rw [forkServerHandleConnection, hinit]
      exact hrun
    · rintro ⟨_, w⟩ ⟨next, w'⟩ ⟨rfl, count, htrace, htable⟩ hbody
      have hround := forkServerReceive_of_invalid hinvalid rootFd w hopen
        hcapacity hspace
      rw [show forkServerReceive rootFd config (_, w) = .inl (next, w')
        from hbody] at hround
      obtain ⟨hsame, hrecv, hkept⟩ := hround
      exact ⟨hsame, count + 1,
        by rw [hrecv, htrace, List.replicate_succ'], hkept.trans htable⟩
    · rintro ⟨_, w⟩ ⟨code, w'⟩ ⟨rfl, count, htrace, htable⟩ hbody
      have hround := forkServerReceive_of_invalid hinvalid rootFd w hopen
        hcapacity hspace
      rw [show forkServerReceive rootFd config (_, w) = .inr (code, w')
        from hbody] at hround
      obtain ⟨hrecv, hkept⟩ := hround
      exact ⟨count + 1,
        by rw [hrecv, htrace, List.replicate_succ'], hkept.trans htable⟩
  · refine ⟨0, ?_⟩
    rw [forkServerHandleConnection, hinit]
    exact ⟨rfl, rfl⟩

/-- With an invalid configuration no client is ever answered. -/
theorem output_of_invalid {config : ServerConfig}
    (hinvalid : httpConfigValid config = false) (rootFd : Fd)
    (environment : Environment) (inherited : List (Fd × Inode)) :
    output rootFd config environment inherited = [] := by
  obtain ⟨count, htrace, -⟩ := forkServerHandleConnection_of_invalid hinvalid
    rootFd environment inherited
  rw [output, htrace]
  apply written_eq_nil
  intro event hevent
  rw [List.eq_of_mem_replicate hevent]
  rfl

/-- The command line and the parser agree within the limits only: what is
accepted there is a valid configuration, and what is accepted elsewhere leaves
every client without an answer. -/
theorem configParseArgs_valid_iff {argv : List CString}
    {config : ServerConfig}
    (haccepted : configParseArgs configInit argv = (.success, config)) :
    (httpConfigValid config = true ↔ WithinLimits argv) ∧
      (¬ WithinLimits argv → ∀ rootFd environment inherited,
        output rootFd config environment inherited = []) := by
  have hvalid := httpConfigValid_configParseArgs haccepted
  refine ⟨hvalid, fun hbeyond rootFd environment inherited => ?_⟩
  refine output_of_invalid ?_ rootFd environment inherited
  rw [← Bool.not_eq_true, hvalid]
  exact hbeyond

/-- A command line within the limits, one option given twice. -/
def loweredArgv : List CString :=
  [cstring (ascii "server"), cstring (ascii "--max-headers"),
    cstring (ascii "65"), cstring (ascii "--max-headers"),
    cstring (ascii "16")]

theorem configParseArgs_valid_iff_lowered :
    httpConfigValid (configParseArgs configInit loweredArgv).2 = true ↔
      WithinLimits loweredArgv :=
  have haccepted : configParseArgs configInit loweredArgv =
      (.success, { configInit with httpMaxHeaders := 16 }) := by
    decide +kernel
  haccepted ▸ (configParseArgs_valid_iff haccepted).1

/-- A command line that is accepted beyond the limits. -/
def raisedArgv : List CString :=
  [cstring (ascii "server"), cstring (ascii "--max-headers"),
    cstring (ascii "65")]

theorem configParseArgs_accepts_invalid :
    ¬ ∀ argv : List CString, (configParseArgs configInit argv).1 = .success →
      httpConfigValid (configParseArgs configInit argv).2 = true := by
  intro hall
  exact absurd (hall raisedArgv (by decide +kernel)) (by decide +kernel)

end HttpCerver.Startup
