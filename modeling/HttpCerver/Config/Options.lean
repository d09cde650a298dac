import HttpCerver.Config
import HttpCerver.Core.Records

/-!
# Options on the command line

The configuration is a record with one field for each option.  The loop of
`config_parse_args`, which moves its index inside conditions, reads the command
line as pairs of an option and a value and assigns them one after the other.
-/

namespace HttpCerver.Options

open HttpCerver.Bytes
open HttpCerver.Config
open HttpCerver.Records

inductive ConfigOption
  | port
  | backlog
  | timeout
  | root
  | httpBufferSize
  | maxHeaders
  | headerNameMax
  | headerValueMax
  deriving DecidableEq

/-- The options, in the order in which the loop compares them. -/
def configOptions : List ConfigOption :=
  [.port, .backlog, .timeout, .root, .httpBufferSize, .maxHeaders,
    .headerNameMax, .headerValueMax]

theorem mem_configOptions (option : ConfigOption) :
    option ∈ configOptions := by
  cases option <;> decide

def ConfigOption.name : ConfigOption → List Byte
  | .port => ascii "--port"
  | .backlog => ascii "--backlog"
  | .timeout => ascii "--timeout"
  | .root => ascii "--root"
  | .httpBufferSize => ascii "--http-buffer-size"
  | .maxHeaders => ascii "--max-headers"
  | .headerNameMax => ascii "--header-name-max"
  | .headerValueMax => ascii "--header-value-max"

/-- The type of the field an option sets. -/
def ConfigOption.Value : ConfigOption → Type
  | .root => List Byte
  | _ => ℕ

/-- The parser for the values of an option; a port has to fit 16 bits. -/
def ConfigOption.read : (option : ConfigOption) → CString → Option option.Value
  | .port, value =>
    (parsePositiveInt value).bind fun port =>
      if 65535 < port then none else some port
  | .backlog, value => parsePositiveInt value
  | .timeout, value => parsePositiveInt value
  | .root, value => some value.bytes
  | .httpBufferSize, value => parsePositiveSize value
  | .maxHeaders, value => parsePositiveSize value
  | .headerNameMax, value => parsePositiveSize value
  | .headerValueMax, value => parsePositiveSize value

/-- The field an option sets. -/
def ConfigOption.get : (option : ConfigOption) → ServerConfig → option.Value
  | .port, config => config.port
  | .backlog, config => config.backlog
  | .timeout, config => config.clientTimeout
  | .root, config => config.documentRoot
  | .httpBufferSize, config => config.httpBufferSize
  | .maxHeaders, config => config.httpMaxHeaders
  | .headerNameMax, config => config.httpHeaderNameMax
  | .headerValueMax, config => config.httpHeaderValueMax

def ConfigOption.set : (option : ConfigOption) → option.Value →
    ServerConfig → ServerConfig
  | .port, number, config => { config with port := number }
  | .backlog, number, config => { config with backlog := number }
  | .timeout, number, config => { config with clientTimeout := number }
  | .root, path, config => { config with documentRoot := path }
  | .httpBufferSize, number, config => { config with httpBufferSize := number }
  | .maxHeaders, number, config => { config with httpMaxHeaders := number }
  | .headerNameMax, number, config =>
    { config with httpHeaderNameMax := number }
  | .headerValueMax, number, config =>
    { config with httpHeaderValueMax := number }

/-- The configuration as a record: the options name all of its fields. -/
def configRecord : Record ServerConfig ConfigOption ConfigOption.Value where
  get := ConfigOption.get
  set := ConfigOption.set
  get_set option value config := by
    cases option <;> rfl
  get_set_of_ne {option other} hother value config := by
    cases option <;> cases other <;> first | rfl | exact absurd rfl hother
  ext {left right} hsame := by
    obtain ⟨_, _, _, _, _, _, _, _⟩ := left
    obtain ⟨_, _, _, _, _, _, _, _⟩ := right
    rw [ServerConfig.mk.injEq]
    exact ⟨hsame .port, hsame .backlog, hsame .timeout, hsame .root,
      hsame .httpBufferSize, hsame .maxHeaders, hsame .headerNameMax,
      hsame .headerValueMax⟩

/-- An argument and the one behind it. -/
abbrev ArgPair := CString × CString

/-- The command line that consists of these pairs. -/
def spell (pairs : List ArgPair) : List CString :=
  pairs.flatMap fun pair => [pair.1, pair.2]

/-- The pair names this option. -/
def Names (option : ConfigOption) (pair : ArgPair) : Prop :=
  pair.1.bytes = option.name

instance (option : ConfigOption) : DecidablePred (Names option) :=
  fun pair => inferInstanceAs (Decidable (pair.1.bytes = option.name))

/-- One of the eight names and a value that its parser accepts. -/
def Accepted (pair : ArgPair) : Prop :=
  ∃ option : ConfigOption, Names option pair ∧
    (option.read pair.2).isSome = true

/-- The value of the last pair for an option. -/
def lastValue (option : ConfigOption) (pairs : List ArgPair) :
    Option option.Value :=
  (pairs.filter (Names option ·)).getLast?.bind fun pair => option.read pair.2

/-- A permutation that keeps the pairs of each option in order. -/
structure Reordered (pairs others : List ArgPair) : Prop where
  perm : pairs.Perm others
  inOrder : ∀ option : ConfigOption,
    pairs.filter (Names option ·) = others.filter (Names option ·)

theorem ConfigOption.name_injective {option other : ConfigOption}
    (hname : option.name = other.name) : option = other := by
  revert hname
  cases option <;> cases other <;> decide

/-- An option that the pair names is found by its name. -/
theorem applyOption_of_names {option : ConfigOption} {pair : ArgPair}
    (hnames : Names option pair) (config : ServerConfig) :
    applyOption pair.1 pair.2 config =
      (option.read pair.2).map fun value => option.set value config := by
  have hname : pair.1.bytes = option.name := hnames
  rw [applyOption, hname]
  cases option with
  | port =>
      rw [ConfigOption.name, if_pos rfl, ConfigOption.read]
      cases parsePositiveInt pair.2 with
      | none => rfl
      | some port =>
          rw [Option.bind_some, Option.bind_some]
          by_cases hlarge : 65535 < port
          · rw [if_pos hlarge, if_pos hlarge]
            rfl
          · rw [if_neg hlarge, if_neg hlarge]
            rfl
  | _ => rfl

theorem applyOption_of_unknown {pair : ArgPair}
    (hunknown : ∀ option, ¬ Names option pair) (config : ServerConfig) :
    applyOption pair.1 pair.2 config = none := by
  rw [applyOption]
  apply (if_neg (hunknown .port)).trans
  apply (if_neg (hunknown .backlog)).trans
  apply (if_neg (hunknown .timeout)).trans
  apply (if_neg (hunknown .root)).trans
  apply (if_neg (hunknown .httpBufferSize)).trans
  apply (if_neg (hunknown .maxHeaders)).trans
  apply (if_neg (hunknown .headerNameMax)).trans
  exact if_neg (hunknown .headerValueMax)

/-- The assignment that a pair stands for. -/
def assignmentOf (pair : ArgPair) : Option (Σ option : ConfigOption, option.Value) :=
  (configOptions.find? (Names · pair)).bind fun option =>
    (option.read pair.2).map fun value => ⟨option, value⟩

theorem assignmentOf_of_names {option : ConfigOption} {pair : ArgPair}
    (hnames : Names option pair) :
    assignmentOf pair = (option.read pair.2).map fun value => ⟨option, value⟩ := by
  have hfind : configOptions.find? (Names · pair) = some option := by
    cases hfound : configOptions.find? (Names · pair) with
    | none =>
        have hmissing := List.find?_eq_none.mp hfound option (mem_configOptions option)
        exact absurd (decide_eq_true hnames) hmissing
    | some other =>
        have hother : Names other pair := by
          simpa using List.find?_some hfound
        rw [ConfigOption.name_injective (hother.symm.trans hnames)]
  rw [assignmentOf, hfind, Option.bind_some]

theorem assignmentOf_of_unknown {pair : ArgPair}
    (hunknown : ∀ option, ¬ Names option pair) : assignmentOf pair = none := by
  have hfind : configOptions.find? (Names · pair) = none := by
    rw [List.find?_eq_none]
    intro option _
    simpa using hunknown option
  rw [assignmentOf, hfind, Option.bind_none]

/-- A pair is an assignment to the record. -/
theorem applyOption_eq (pair : ArgPair) (config : ServerConfig) :
    applyOption pair.1 pair.2 config =
      (assignmentOf pair).map fun entry =>
        configRecord.set entry.1 entry.2 config := by
  by_cases hknown : ∃ option, Names option pair
  · obtain ⟨option, hnames⟩ := hknown
    rw [applyOption_of_names hnames, assignmentOf_of_names hnames,
      Option.map_map]
    rfl
  · rw [not_exists] at hknown
    rw [applyOption_of_unknown hknown, assignmentOf_of_unknown hknown]
    rfl

theorem accepted_iff {pair : ArgPair} :
    Accepted pair ↔ ∃ entry, assignmentOf pair = some entry := by
  constructor
  · rintro ⟨option, hnames, hread⟩
    obtain ⟨value, hvalue⟩ := Option.isSome_iff_exists.mp hread
    exact ⟨⟨option, value⟩, by rw [assignmentOf_of_names hnames, hvalue]; rfl⟩
  · rintro ⟨entry, hentry⟩
    by_cases hknown : ∃ option, Names option pair
    · obtain ⟨option, hnames⟩ := hknown
      rw [assignmentOf_of_names hnames] at hentry
      obtain ⟨value, hvalue, -⟩ := Option.map_eq_some_iff.mp hentry
      exact ⟨option, hnames, Option.isSome_of_eq_some hvalue⟩
    · rw [not_exists] at hknown
      rw [assignmentOf_of_unknown hknown] at hentry
      cases hentry

theorem drop_eq_cons_cons {argv : List CString} {i : ℕ}
    {option value : CString} (hoption : argv[i]? = some option)
    (hvalue : argv[i + 1]? = some value) :
    argv.drop i = option :: value :: argv.drop (i + 2) := by
  obtain ⟨hi, rfl⟩ := List.getElem?_eq_some_iff.mp hoption
  obtain ⟨hnext, rfl⟩ := List.getElem?_eq_some_iff.mp hvalue
  rw [List.drop_eq_getElem_cons hi, List.drop_eq_getElem_cons hnext]

/-- The loop ends well at the end of the command line only. -/
theorem configParseArg_eq_success {argv : List CString} {scan : ArgScan}
    {config : ServerConfig}
    (hround : configParseArg argv scan = .inr (.success, config)) :
    argv[scan.i]? = none ∧ scan.config = config := by
  cases hoption : argv[scan.i]? with
  | none =>
      simp only [configParseArg, hoption] at hround
      cases hround
      exact ⟨rfl, rfl⟩
  | some option =>
      exfalso
      cases hvalue : argv[scan.i + 1]? with
      | none =>
          rw [configParseArg_of_missing hoption hvalue] at hround
          cases hround
      | some value =>
          exact (configParseArg_follows hoption hvalue).ne_success config hround

/-- Pairs that are taken one after the other bring the loop to its end. -/
theorem configParseLoop_of_spelled {argv : List CString}
    {pairs : List ArgPair} {scan : ArgScan} {final : ServerConfig}
    (hspelled : argv.drop scan.i = spell pairs)
    (htaken : pairs.foldlM (fun config pair =>
      applyOption pair.1 pair.2 config) scan.config = some final) :
    (configParseLoop argv).run scan = (.success, final) := by
  induction pairs generalizing scan with
  | nil =>
      cases htaken
      have hend : argv[scan.i]? = none := by
        rw [List.getElem?_eq_none_iff]
        exact List.drop_eq_nil_iff.mp hspelled
      apply (configParseLoop argv).run_of_exit
      simp only [configParseLoop, configParseArg, hend]
  | cons pair pairs ih =>
      rw [List.foldlM_cons] at htaken
      obtain ⟨next, hnext, hrest⟩ := Option.bind_eq_some_iff.mp htaken
      have hoption : argv[scan.i]? = some pair.1 := by
        rw [← List.head?_drop, hspelled]
        rfl
      have hvalue : argv[scan.i + 1]? = some pair.2 := by
        rw [← List.head?_drop, ← List.drop_drop, hspelled]
        rfl
      have hlater : argv.drop (scan.i + 2) = spell pairs := by
        rw [← List.drop_drop, hspelled]
        rfl
      have hround : (configParseLoop argv).body scan =
          .inl { i := scan.i + 2, config := next } :=
        configParseArg_eq_inl_iff.mpr
          ⟨pair.1, pair.2, hoption, hvalue, hnext, rfl⟩
      rw [(configParseLoop argv).run_of_continue hround]
      exact ih hlater hrest

/-- The command line is accepted when it consists of pairs that are taken one
after the other. -/
theorem configParseArgs_eq_success_iff {argv : List CString}
    {config final : ServerConfig} :
    configParseArgs config argv = (.success, final) ↔
      ∃ pairs, argv.tail = spell pairs ∧
        pairs.foldlM (fun config pair => applyOption pair.1 pair.2 config)
          config = some final := by
  constructor
  · intro haccepted
    have hrun := (configParseLoop argv).run_induction
      (motive := fun scan result => result.1 = .success →
        ∃ pairs, argv.drop scan.i = spell pairs ∧
          pairs.foldlM (fun config pair => applyOption pair.1 pair.2 config)
            scan.config = some result.2)
      ?_ ?_ { i := 1, config := config }
    · rw [← configParseArgs, haccepted, List.drop_one] at hrun
      exact hrun rfl
    · rintro scan ⟨code, result⟩ hbody rfl
      obtain ⟨hend, rfl⟩ := configParseArg_eq_success hbody
      refine ⟨[], ?_, rfl⟩
      exact List.drop_eq_nil_of_le (List.getElem?_eq_none_iff.mp hend)
    · intro scan next result hbody hnext hsuccess
      obtain ⟨option, value, hoption, hvalue, happlied, hindex⟩ :=
        configParseArg_eq_inl_iff.mp hbody
      obtain ⟨pairs, hspelled, htaken⟩ := hnext hsuccess
      rw [hindex] at hspelled
      refine ⟨(option, value) :: pairs, ?_, ?_⟩
      · rw [drop_eq_cons_cons hoption hvalue, hspelled]
        rfl
      · rw [List.foldlM_cons]
        exact Option.bind_eq_some_iff.mpr ⟨next.config, happlied, htaken⟩
  · rintro ⟨pairs, hspelled, htaken⟩
    apply configParseLoop_of_spelled _ htaken
    rw [List.drop_one, hspelled]

/-- Taking pairs is assigning what they stand for. -/
theorem foldlM_applyOption (pairs : List ArgPair) (config : ServerConfig) :
    (pairs.foldlM (fun config pair => applyOption pair.1 pair.2 config)
        config) =
      (pairs.mapM assignmentOf).map fun entries =>
        configRecord.assign entries config := by
  rw [← configRecord.foldlM_assign assignmentOf]
  simp only [applyOption_eq]

theorem getLast?_filterMap_of_isSome {Source Target : Type*}
    {read : Source → Option Target} {sources : List Source}
    (hread : ∀ source ∈ sources, (read source).isSome = true) :
    (sources.filterMap read).getLast? = sources.getLast?.bind read := by
  rw [List.getLast?_filterMap, ← List.head?_reverse]
  cases hreverse : sources.reverse with
  | nil => rfl
  | cons source rest =>
      have hmem : source ∈ sources := by
        rw [← List.mem_reverse, hreverse]
        exact List.mem_cons_self
      obtain ⟨target, htarget⟩ := Option.isSome_iff_exists.mp (hread source hmem)
      rw [List.findSome?_cons, htarget, List.head?_cons, Option.bind_some,
        htarget]

theorem exists_assignments_iff {pairs : List ArgPair} :
    (∃ entries, pairs.mapM assignmentOf = some entries) ↔
      ∀ pair ∈ pairs, Accepted pair := by
  induction pairs with
  | nil => simp
  | cons pair pairs ih =>
      rw [List.forall_mem_cons, ← ih, accepted_iff, List.mapM_cons]
      cases assignmentOf pair with
      | none => simp
      | some entry =>
          cases pairs.mapM assignmentOf with
          | none => simp
          | some entries => simp

/-- The last assignment to a field is that of the last pair for its option. -/
theorem lastValue_assignments {pairs : List ArgPair}
    {entries : List (Σ option : ConfigOption, option.Value)}
    (hentries : pairs.mapM assignmentOf = some entries)
    (option : ConfigOption) :
    Record.lastValue option entries = lastValue option pairs := by
  have hread : ∀ pair ∈ pairs.filter (Names option ·),
      (option.read pair.2).isSome = true := by
    intro pair hpair
    obtain ⟨hmem, hnames⟩ := List.mem_filter.mp hpair
    obtain ⟨other, hother, hvalue⟩ :=
      exists_assignments_iff.mp ⟨entries, hentries⟩ pair hmem
    have hsame : option = other := ConfigOption.name_injective
      ((of_decide_eq_true hnames).symm.trans hother)
    rw [hsame]
    exact hvalue
  rw [lastValue, ← getLast?_filterMap_of_isSome hread, Record.lastValue]
  congr 1
  clear hread
  induction pairs generalizing entries with
  | nil =>
      cases hentries
      rfl
  | cons pair pairs ih =>
      rw [List.mapM_cons] at hentries
      obtain ⟨entry, hentry, hrest⟩ := Option.bind_eq_some_iff.mp hentries
      obtain ⟨others, hothers, hsame⟩ := Option.bind_eq_some_iff.mp hrest
      cases hsame
      by_cases hnames : Names option pair
      · rw [assignmentOf_of_names hnames] at hentry
        obtain ⟨value, hvalue, rfl⟩ := Option.map_eq_some_iff.mp hentry
        rw [List.filter_cons_of_pos (by simpa using hnames)]
        simp only [List.filterMap_cons, hvalue, Record.valueFor_self,
          ih hothers]
      · have hother : entry.1 ≠ option := by
          rintro rfl
          apply hnames
          obtain ⟨found, hfound, hset⟩ := Option.bind_eq_some_iff.mp hentry
          obtain ⟨value, -, rfl⟩ := Option.map_eq_some_iff.mp hset
          simpa using List.find?_some hfound
        rw [List.filter_cons_of_neg (by simpa using hnames),
          List.filterMap_cons_none (Record.valueFor_of_ne hother), ih hothers]

theorem exists_accepted_iff (config : ServerConfig) (argv : List CString) :
    (configParseArgs config argv).1 = .success ↔
      ∃ pairs, argv.tail = spell pairs ∧ ∀ pair ∈ pairs, Accepted pair := by
  constructor
  · intro hsuccess
    obtain ⟨pairs, hspelled, htaken⟩ := configParseArgs_eq_success_iff.mp
      (Prod.ext hsuccess rfl : configParseArgs config argv =
        (.success, (configParseArgs config argv).2))
    rw [foldlM_applyOption] at htaken
    obtain ⟨entries, hentries, -⟩ := Option.map_eq_some_iff.mp htaken
    exact ⟨pairs, hspelled, exists_assignments_iff.mp ⟨entries, hentries⟩⟩
  · rintro ⟨pairs, hspelled, haccepted⟩
    obtain ⟨entries, hentries⟩ := exists_assignments_iff.mpr haccepted
    have htaken := foldlM_applyOption pairs config
    rw [hentries, Option.map_some] at htaken
    rw [configParseArgs_eq_success_iff.mpr ⟨pairs, hspelled, htaken⟩]

/-- A command line of accepted pairs assigns their values. -/
theorem configParseArgs_of_accepted {argv : List CString}
    {pairs : List ArgPair} (hspelled : argv.tail = spell pairs)
    (haccepted : ∀ pair ∈ pairs, Accepted pair) (config : ServerConfig) :
    ∃ entries, pairs.mapM assignmentOf = some entries ∧
      configParseArgs config argv =
        (.success, configRecord.assign entries config) := by
  obtain ⟨entries, hentries⟩ := exists_assignments_iff.mpr haccepted
  refine ⟨entries, hentries, ?_⟩
  rw [configParseArgs_eq_success_iff]
  refine ⟨pairs, hspelled, ?_⟩
  rw [foldlM_applyOption, hentries, Option.map_some]

/-- The command line is accepted just when it consists of accepted pairs; each
field then holds the value of the last pair for its option, and the order of
pairs for different options does not matter. -/
theorem configParseArgs_last_wins (config : ServerConfig)
    (argv : List CString) :
    ((configParseArgs config argv).1 = .success ↔
      ∃ pairs, argv.tail = spell pairs ∧ ∀ pair ∈ pairs, Accepted pair) ∧
    ∀ pairs, argv.tail = spell pairs → (∀ pair ∈ pairs, Accepted pair) →
      (∀ option : ConfigOption,
        option.get (configParseArgs config argv).2 =
          (lastValue option pairs).getD (option.get config)) ∧
      ∀ argv' pairs', Reordered pairs pairs' → argv'.tail = spell pairs' →
        configParseArgs config argv' = configParseArgs config argv := by
  refine ⟨exists_accepted_iff config argv, ?_⟩
  intro pairs hspelled haccepted
  obtain ⟨entries, hentries, hparsed⟩ :=
    configParseArgs_of_accepted hspelled haccepted config
  rw [hparsed]
  constructor
  · intro option
    rw [← lastValue_assignments hentries option]
    exact configRecord.get_assign option entries config
  · intro argv' pairs' hreordered hspelled'
    have haccepted' : ∀ pair ∈ pairs', Accepted pair := fun pair hpair =>
      haccepted pair (hreordered.perm.mem_iff.mpr hpair)
    obtain ⟨entries', hentries', hparsed'⟩ :=
      configParseArgs_of_accepted hspelled' haccepted' config
    rw [hparsed']
    congr 1
    apply configRecord.assign_congr
    intro option
    rw [lastValue_assignments hentries, lastValue_assignments hentries',
      lastValue, lastValue, hreordered.inOrder option]

/-- Two pairs for the limit of headers around one whose value is the name of an
option. -/
example : configParseArgs configInit ([ascii "server", ascii "--max-headers",
    ascii "8", ascii "--root", ascii "--port", ascii "--max-headers",
    ascii "16"].map cstring) =
      (.success, { configInit with
        documentRoot := ascii "--port"
        httpMaxHeaders := 16 }) := by
  decide +kernel

end HttpCerver.Options
