import HttpCerver.Core.Iteration
import HttpCerver.Runtime.Numerals

/-!
# Server configuration

The model of `config.c`: the defaults, the two number parsers and the loop
over the command line, which steps over an option and its value by moving its
index.
-/

namespace HttpCerver.Config

open HttpCerver.Bytes
open HttpCerver.Iteration
open HttpCerver.Numerals

/-- `server_config_t`. -/
structure ServerConfig where
  port : ℕ
  backlog : ℕ
  clientTimeout : ℕ
  documentRoot : List Byte
  httpBufferSize : ℕ
  httpMaxHeaders : ℕ
  httpHeaderNameMax : ℕ
  httpHeaderValueMax : ℕ
  deriving DecidableEq

def defaultHttpMaxHeaders : ℕ := 64
def defaultHttpHeaderNameMax : ℕ := 128
def defaultHttpHeaderValueMax : ℕ := 4096

def configInit : ServerConfig where
  port := 8080
  backlog := 10
  clientTimeout := 10
  documentRoot := ascii "public"
  httpBufferSize := 16384
  httpMaxHeaders := defaultHttpMaxHeaders
  httpHeaderNameMax := defaultHttpHeaderNameMax
  httpHeaderValueMax := defaultHttpHeaderValueMax

/-- The value stored through `result`, or `none` for `-1`. -/
def parsePositiveInt (value : CString) : Option ℕ :=
  let parsed := strtol value.bytes
  if parsed.erange ∨ parsed.stop = 0 ∨ parsed.stop ≠ value.bytes.length ∨
      parsed.value ≤ 0 ∨ (intMax : Int) < parsed.value then
    none
  else
    some parsed.value.toNat

/-- The value stored through `result`, or `none` for `-1`. -/
def parsePositiveSize (value : CString) : Option ℕ :=
  let parsed := strtoull value.bytes
  if parsed.erange ∨ parsed.stop = 0 ∨ parsed.stop ≠ value.bytes.length ∨
      parsed.value ≤ 0 ∨ intMax ≤ parsed.value then
    none
  else
    some parsed.value

/-- `i + 1 >= argc || parse(argv[++i], ...) < 0`, negated: the parsed argument
behind index `i`. -/
def optionValue {Value : Type} (parse : CString → Option Value)
    (argv : List CString) (i : ℕ) : Option Value :=
  argv[i + 1]?.bind parse

/-- The locals of the loop: its index and the configuration written so far. -/
structure ArgScan where
  i : ℕ
  config : ServerConfig

/-- An option that stores a parsed number and steps over its value. -/
def storeOption (parse : CString → Option ℕ) (argv : List CString)
    (scan : ArgScan) (store : ℕ → ServerConfig) :
    ArgScan ⊕ ReturnCode × ServerConfig :=
  match optionValue parse argv scan.i with
  | none => .inr (.failure, scan.config)
  | some value => .inl { i := scan.i + 2, config := store value }

/-- One round of the loop over `argv`. -/
def configParseArg (argv : List CString) (scan : ArgScan) :
    ArgScan ⊕ ReturnCode × ServerConfig :=
  match argv[scan.i]? with
  | none => .inr (.success, scan.config)
  | some option =>
    let config := scan.config
    if option.bytes = ascii "--port" then
      match optionValue parsePositiveInt argv scan.i with
      | none => .inr (.failure, config)
      | some port =>
        if 65535 < port then .inr (.failure, { config with port := port })
        else .inl { i := scan.i + 2, config := { config with port := port } }
    else if option.bytes = ascii "--backlog" then
      storeOption parsePositiveInt argv scan fun value =>
        { config with backlog := value }
    else if option.bytes = ascii "--timeout" then
      storeOption parsePositiveInt argv scan fun value =>
        { config with clientTimeout := value }
    else if option.bytes = ascii "--root" then
      match argv[scan.i + 1]? with
      | none => .inr (.failure, config)
      | some root => .inl
          { i := scan.i + 2
            config := { config with documentRoot := root.bytes } }
    else if option.bytes = ascii "--http-buffer-size" then
      storeOption parsePositiveSize argv scan fun value =>
        { config with httpBufferSize := value }
    else if option.bytes = ascii "--max-headers" then
      storeOption parsePositiveSize argv scan fun value =>
        { config with httpMaxHeaders := value }
    else if option.bytes = ascii "--header-name-max" then
      storeOption parsePositiveSize argv scan fun value =>
        { config with httpHeaderNameMax := value }
    else if option.bytes = ascii "--header-value-max" then
      storeOption parsePositiveSize argv scan fun value =>
        { config with httpHeaderValueMax := value }
    else
      .inr (.failure, config)

/-- What an option and its value do to a configuration; `none` when the pair
is refused. -/
def applyOption (option value : CString) (config : ServerConfig) :
    Option ServerConfig :=
  if option.bytes = ascii "--port" then
    (parsePositiveInt value).bind fun port =>
      if 65535 < port then none else some { config with port := port }
  else if option.bytes = ascii "--backlog" then
    (parsePositiveInt value).map fun number =>
      { config with backlog := number }
  else if option.bytes = ascii "--timeout" then
    (parsePositiveInt value).map fun number =>
      { config with clientTimeout := number }
  else if option.bytes = ascii "--root" then
    some { config with documentRoot := value.bytes }
  else if option.bytes = ascii "--http-buffer-size" then
    (parsePositiveSize value).map fun number =>
      { config with httpBufferSize := number }
  else if option.bytes = ascii "--max-headers" then
    (parsePositiveSize value).map fun number =>
      { config with httpMaxHeaders := number }
  else if option.bytes = ascii "--header-name-max" then
    (parsePositiveSize value).map fun number =>
      { config with httpHeaderNameMax := number }
  else if option.bytes = ascii "--header-value-max" then
    (parsePositiveSize value).map fun number =>
      { config with httpHeaderValueMax := number }
  else
    none

/-- What a round makes of a pair: it steps over one that was applied and
leaves with `-1` at one that was refused. -/
def Follows (scan : ArgScan) (applied : Option ServerConfig)
    (round : ArgScan ⊕ ReturnCode × ServerConfig) : Prop :=
  match applied with
  | some config => round = .inl { i := scan.i + 2, config := config }
  | none => ∃ rest, round = .inr (.failure, rest)

theorem Follows.ite {scan : ArgScan} {p : Prop} [Decidable p]
    {applied other : Option ServerConfig}
    {round another : ArgScan ⊕ ReturnCode × ServerConfig}
    (hthen : Follows scan applied round)
    (helse : Follows scan other another) :
    Follows scan (if p then applied else other)
      (if p then round else another) := by
  by_cases hp : p
  · rwa [if_pos hp, if_pos hp]
  · rwa [if_neg hp, if_neg hp]

theorem Follows.eq_inl_iff {scan next : ArgScan}
    {applied : Option ServerConfig}
    {round : ArgScan ⊕ ReturnCode × ServerConfig}
    (hfollows : Follows scan applied round) :
    round = .inl next ↔ applied = some next.config ∧ next.i = scan.i + 2 := by
  cases applied with
  | none =>
      obtain ⟨rest, rfl⟩ := hfollows
      simp
  | some config =>
      rw [show round = .inl { i := scan.i + 2, config := config } from hfollows,
        Sum.inl.injEq, Option.some.injEq]
      constructor
      · rintro rfl
        exact ⟨rfl, rfl⟩
      · rintro ⟨rfl, hindex⟩
        rw [← hindex]

theorem Follows.ne_success {scan : ArgScan} {applied : Option ServerConfig}
    {round : ArgScan ⊕ ReturnCode × ServerConfig}
    (hfollows : Follows scan applied round) (config : ServerConfig) :
    round ≠ .inr (.success, config) := by
  cases applied with
  | none =>
      obtain ⟨rest, rfl⟩ := hfollows
      simp
  | some next =>
      rw [show round = .inl { i := scan.i + 2, config := next } from hfollows]
      exact Sum.inl_ne_inr

theorem follows_storeOption {argv : List CString} {scan : ArgScan}
    {value : CString} (hvalue : argv[scan.i + 1]? = some value)
    (parse : CString → Option ℕ) (store : ℕ → ServerConfig) :
    Follows scan ((parse value).map store)
      (storeOption parse argv scan store) := by
  rw [storeOption, optionValue, hvalue, Option.bind_some]
  cases parse value with
  | none => exact ⟨scan.config, rfl⟩
  | some number => rfl

/-- With an option and a value at hand a round does what `applyOption`
says. -/
theorem configParseArg_follows {argv : List CString} {scan : ArgScan}
    {option value : CString} (hoption : argv[scan.i]? = some option)
    (hvalue : argv[scan.i + 1]? = some value) :
    Follows scan (applyOption option value scan.config)
      (configParseArg argv scan) := by
  have hstore := follows_storeOption hvalue
  rw [configParseArg, applyOption, hoption]
  -- one `Follows.ite` for each option, in the order of the source
  apply Follows.ite
  · rw [optionValue, hvalue, Option.bind_some]
    cases parsePositiveInt value with
    | none => exact ⟨scan.config, rfl⟩
    | some port =>
        rw [Option.bind_some]
        by_cases hlarge : 65535 < port
        · rw [if_pos hlarge]
          exact ⟨{ scan.config with port := port }, if_pos hlarge⟩
        · rw [if_neg hlarge]
          exact if_neg hlarge
  apply Follows.ite (hstore _ _)
  apply Follows.ite (hstore _ _)
  apply Follows.ite
  · rw [hvalue]
    rfl
  apply Follows.ite (hstore _ _)
  apply Follows.ite (hstore _ _)
  apply Follows.ite (hstore _ _)
  apply Follows.ite (hstore _ _)
  exact ⟨scan.config, rfl⟩

/-- Known or not, an option without a value ends the loop with `-1`. -/
theorem configParseArg_of_missing {argv : List CString} {scan : ArgScan}
    {option : CString} (hoption : argv[scan.i]? = some option)
    (hvalue : argv[scan.i + 1]? = none) :
    configParseArg argv scan = .inr (.failure, scan.config) := by
  simp only [configParseArg, hoption, optionValue, storeOption, hvalue,
    Option.bind_none, ite_self]

/-- A round that goes on has read an option and its value and moved the index
past both. -/
theorem configParseArg_eq_inl_iff {argv : List CString}
    {scan next : ArgScan} :
    configParseArg argv scan = .inl next ↔
      ∃ option value, argv[scan.i]? = some option ∧
        argv[scan.i + 1]? = some value ∧
        applyOption option value scan.config = some next.config ∧
        next.i = scan.i + 2 := by
  cases hoption : argv[scan.i]? with
  | none => simp [configParseArg, hoption]
  | some option =>
      cases hvalue : argv[scan.i + 1]? with
      | none => simp [configParseArg_of_missing hoption hvalue]
      | some value =>
          rw [(configParseArg_follows hoption hvalue).eq_inl_iff]
          constructor
          · rintro ⟨happlied, hindex⟩
            exact ⟨option, value, rfl, rfl, happlied, hindex⟩
          · rintro ⟨_, _, ⟨rfl⟩, ⟨rfl⟩, happlied, hindex⟩
            exact ⟨happlied, hindex⟩

/-- The loop of `config_parse_args`, started at index 1. -/
def configParseLoop (argv : List CString) :
    Loop ArgScan (ReturnCode × ServerConfig) where
  body := configParseArg argv
  rank scan := argv.length - scan.i
  rank_lt := by
    intro scan next hbody
    obtain ⟨option, value, -, hvalue, -, hnext⟩ :=
      configParseArg_eq_inl_iff.mp hbody
    have hbound := (List.getElem?_eq_some_iff.mp hvalue).1
    omega

/-- The return code and the configuration as the call leaves it. -/
def configParseArgs (config : ServerConfig) (argv : List CString) :
    ReturnCode × ServerConfig :=
  (configParseLoop argv).run { i := 1, config := config }

end HttpCerver.Config
