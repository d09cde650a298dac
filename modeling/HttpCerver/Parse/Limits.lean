import HttpCerver.Parse.Lines

/-!
# Raising the header limits

The limits of the parser only decide whether a request is too large.  A run
that ends otherwise does not look at a limit that it would not also meet when
the limit is raised, so the run under the raised limits follows it step by
step.
-/

namespace HttpCerver.Limits

open HttpCerver.Bytes
open HttpCerver.Config
open HttpCerver.Grammar
open HttpCerver.Iteration
open HttpCerver.Lines
open HttpCerver.Request

/-- Every header limit is at least what it was. -/
structure Raised (config raised : ServerConfig) : Prop where
  maxHeaders : config.httpMaxHeaders ≤ raised.httpMaxHeaders
  nameMax : config.httpHeaderNameMax ≤ raised.httpHeaderNameMax
  valueMax : config.httpHeaderValueMax ≤ raised.httpHeaderValueMax

/-- A check of a limit that did not decide the result does not decide it when
the limit is raised. -/
theorem limit_passed {limit raised size : ℕ} {Result : Type}
    {large fine result : Result} (hraised : limit ≤ raised)
    (hresult : result ≠ large)
    (hcheck : (if limit ≤ size then large else fine) = result) :
    ¬ raised ≤ size ∧ fine = result := by
  by_cases hlimit : limit ≤ size
  · rw [if_pos hlimit] at hcheck
    exact absurd hcheck.symm hresult
  · rw [if_neg hlimit] at hcheck
    exact ⟨by omega, hcheck⟩

variable {config raised : ServerConfig}

theorem judgeHeader_raised (hraised : Raised config raised)
    {name value : List Byte} {result : Except HttpParseResult HttpHeader}
    (hresult : result ≠ .error .headersTooLarge)
    (hjudged : judgeHeader config name value = result) :
    judgeHeader raised name value = result := by
  rw [judgeHeader] at hjudged ⊢
  by_cases hblank : name.length = 0 ∨ name.getLast? = some sp ∨
      name.getLast? = some htab
  · rw [if_pos hblank] at hjudged ⊢
    exact hjudged
  rw [if_neg hblank] at hjudged ⊢
  by_cases hname : ¬ httpValidHeaderName name = true
  · rw [if_pos hname] at hjudged ⊢
    exact hjudged
  rw [if_neg hname] at hjudged ⊢
  obtain ⟨hshort, hjudged⟩ := limit_passed hraised.nameMax hresult hjudged
  rw [if_neg hshort]
  by_cases hvalue : ¬ httpValidHeaderValue value = true
  · rw [if_pos hvalue] at hjudged ⊢
    exact hjudged
  rw [if_neg hvalue] at hjudged ⊢
  obtain ⟨hsmall, hjudged⟩ := limit_passed hraised.valueMax hresult hjudged
  rw [if_neg hsmall]
  exact hjudged

theorem readHeader_raised (hraised : Raised config raised) {line : List Byte}
    {result : Except HttpParseResult HttpHeader}
    (hresult : result ≠ .error .headersTooLarge)
    (hread : readHeader config line = result) :
    readHeader raised line = result := by
  rw [readHeader] at hread ⊢
  cases hcolon : strchr line colon with
  | none =>
      rw [hcolon] at hread
      exact hread
  | some nameLength =>
      simp only [hcolon] at hread
      exact judgeHeader_raised hraised hresult hread

/-- A round that does not find the request too large goes the same way under
the raised limits. -/
theorem httpParseHeader_raised (hraised : Raised config raised)
    {scan : HeaderScan} {result : HeaderScan ⊕ HttpParseResult × List Byte}
    (hresult : ∀ rest, result ≠ .inr (.headersTooLarge, rest))
    (hround : httpParseHeader config scan = result) :
    httpParseHeader raised scan = result := by
  obtain ⟨text, request⟩ := scan
  rcases text_cases text with htext | ⟨after, rfl⟩ |
    ⟨line, after, rfl, hline, hne⟩
  · rw [httpParseHeader_of_cut config htext, apply_ite Prod.mk,
      ite_apply, apply_ite Sum.inr] at hround
    obtain ⟨hroom, hround⟩ :=
      limit_passed hraised.maxHeaders (hresult _) hround
    rw [httpParseHeader_of_cut raised htext, if_neg hroom]
    exact hround
  · rw [httpParseHeader_of_end] at hround ⊢
    exact hround
  · rw [httpParseHeader_of_line config hline hne] at hround
    obtain ⟨hroom, hround⟩ :=
      limit_passed hraised.maxHeaders (hresult _) hround
    rw [httpParseHeader_of_line raised hline hne, if_neg hroom, ← hround]
    have hread : readHeader raised line = readHeader config line := by
      refine readHeader_raised hraised ?_ rfl
      intro hlarge
      rw [hlarge] at hround
      exact hresult _ hround.symm
    rw [hread]

/-- The whole loop. -/
theorem httpParseHeaderLoop_raised (hraised : Raised config raised)
    (scan : HeaderScan)
    (hresult : ((httpParseHeaderLoop config).run scan).1 ≠ .headersTooLarge) :
    (httpParseHeaderLoop raised).run scan =
      (httpParseHeaderLoop config).run scan := by
  have hrun := (httpParseHeaderLoop config).run_simulation
    (httpParseHeaderLoop raised) Eq
    (fun result result' => result.1 ≠ .headersTooLarge → result' = result)
    ?_ ?_ scan scan rfl
  · exact hrun hresult
  · rintro scan _ next rfl hbody
    exact ⟨next, httpParseHeader_raised hraised (by simp) hbody, rfl⟩
  · rintro scan _ result rfl hbody hlarge
    refine (httpParseHeaderLoop raised).run_of_exit
      (httpParseHeader_raised hraised ?_ hbody)
    rintro rest hsame
    cases hsame
    exact hlarge rfl

theorem httpParseRequest_raised (hraised : Raised config raised)
    {buffer : CString}
    (hresult : httpParseRequest buffer config ≠ .headersTooLarge) :
    httpParseRequest buffer raised = httpParseRequest buffer config := by
  unfold httpParseRequest at hresult ⊢
  cases hline : httpParseRequestLine buffer.bytes with
  | none => rfl
  | some line =>
      simp only [hline] at hresult ⊢
      by_cases hversion : line.version ≠ ascii "HTTP/1.1" ∧
          line.version ≠ ascii "HTTP/1.0"
      · rw [if_pos hversion, if_pos hversion]
      · rw [if_neg hversion] at hresult ⊢
        rw [if_neg hversion]
        cases htarget : httpParseTarget line.target with
        | none => rfl
        | some target =>
            simp only [htarget, httpParseHeaders] at hresult ⊢
            cases hend : strstr buffer.bytes crlf with
            | none => rfl
            | some lineEnd =>
                simp only [hend] at hresult ⊢
                rw [httpParseHeaderLoop_raised hraised _ hresult]

/-- Raising the header limits keeps every request that is accepted, with all
its fields, and every request that is malformed. -/
theorem limits_only_too_large (hraised : Raised config raised)
    (buffer : CString) :
    (∀ request, httpParseRequest buffer config = .ok request →
      httpParseRequest buffer raised = .ok request) ∧
      (httpParseRequest buffer config = .badRequest →
        httpParseRequest buffer raised = .badRequest) := by
  constructor
  · intro request hparse
    rw [httpParseRequest_raised hraised (by simp [hparse]), hparse]
  · intro hparse
    rw [httpParseRequest_raised hraised (by simp [hparse]), hparse]

/-- Limits that the header before the malformed one below just meets. -/
def lowConfig : ServerConfig :=
  { configInit with httpHeaderNameMax := 5, httpHeaderValueMax := 2 }

theorem limits_only_too_large_low :
    httpParseRequest (cstring (ascii "GET / HTTP/1.1\r\nHost: a\r\n: b"))
        configInit = .badRequest :=
  have hraised : Raised lowConfig configInit :=
    ⟨by decide, by decide, by decide⟩
  (limits_only_too_large hraised _).2 (by decide +kernel)

end HttpCerver.Limits
