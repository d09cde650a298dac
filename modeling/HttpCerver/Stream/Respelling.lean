import HttpCerver.Parse.Spelling
import HttpCerver.Server.ContentLength
import HttpCerver.Stream.Reference

/-!
# Header spelling cannot change an answer

Every check that `http_prepare_response` makes on the headers of a request
compares names without regard to case and values that have been trimmed.  Two
spellings of a request are given the same response.
-/

namespace HttpCerver.Respelling

open HttpCerver.Bytes
open HttpCerver.Config
open HttpCerver.ContentLength
open HttpCerver.File
open HttpCerver.Framing
open HttpCerver.Grammar
open HttpCerver.Http
open HttpCerver.Reference
open HttpCerver.Request
open HttpCerver.Response
open HttpCerver.Spelling
open HttpCerver.System

/-- The values of the headers of a name, in order. -/
def valuesOf (name : List Byte) (headers : List HttpHeader) :
    List (List Byte) :=
  (headers.filter fun header => strcasecmp header.name name).map (·.value)

theorem valuesOf_same {headers headers' : List HttpHeader}
    (hsame : List.Forall₂ SameHeader headers headers') (name : List Byte) :
    valuesOf name headers = valuesOf name headers' := by
  induction hsame with
  | nil => rfl
  | @cons header header' headers headers' hheader hsame ih =>
      have hname : strcasecmp header.name name =
          strcasecmp header'.name name := by
        rw [strcasecmp, strcasecmp, strcasecmp_iff.mp hheader.name]
      rw [valuesOf, valuesOf] at ih ⊢
      rw [List.filter_cons, List.filter_cons, hname]
      split_ifs
      · rw [List.map_cons, List.map_cons, hheader.value, ih]
      · exact ih

/-- What the checks ask about the headers of a name, from their values. -/
theorem countP_eq_length_valuesOf (name : List Byte)
    (headers : List HttpHeader) :
    (headers.countP fun header => strcasecmp header.name name) =
      (valuesOf name headers).length := by
  rw [valuesOf, List.length_map, List.countP_eq_length_filter]

theorem find?_eq_head?_valuesOf (name : List Byte)
    (headers : List HttpHeader) :
    (headers.find? fun header => strcasecmp header.name name).map (·.value) =
      (valuesOf name headers).head? := by
  rw [valuesOf, List.head?_map, List.head?_filter]

section SameRequest

variable {request request' : HttpRequest} (h : SameRequest request request')

include h

theorem httpValidateHost_same :
    httpValidateHost request = httpValidateHost request' := by
  simp only [httpValidateHost, countP_eq_length_valuesOf,
    valuesOf_same h.headers]

theorem httpGetHeader_same (name : List Byte) :
    httpGetHeader request name = httpGetHeader request' name := by
  rw [httpGetHeader, httpGetHeader, find?_eq_head?_valuesOf,
    find?_eq_head?_valuesOf, valuesOf_same h.headers]

theorem requestCloses_same : requestCloses request = requestCloses request' := by
  rw [requestCloses, requestCloses, h.version, httpGetHeader_same h]

/-- The decision about the framing depends on the values of two names. -/
theorem httpValidateRequestFraming_same :
    httpValidateRequestFraming request =
      httpValidateRequestFraming request' := by
  have hjudged : ∀ headers : List HttpHeader,
      ((headers.find? isContentLength).elim none
        fun header => httpJudgeLength header.value) =
      ((valuesOf (ascii "Content-Length") headers).head?.elim none
        httpJudgeLength) := by
    intro headers
    rw [← find?_eq_head?_valuesOf, Option.elim_map]
    rfl
  have hlength : ∀ headers : List HttpHeader,
      headers.countP isContentLength =
        (valuesOf (ascii "Content-Length") headers).length :=
    fun headers => countP_eq_length_valuesOf _ headers
  have hencoding : ∀ headers : List HttpHeader,
      headers.any isTransferEncoding =
        decide (0 < (valuesOf (ascii "Transfer-Encoding") headers).length) := by
    intro headers
    rw [← countP_eq_length_valuesOf, Bool.eq_iff_iff, decide_eq_true_iff,
      List.countP_pos_iff, List.any_eq_true]
    rfl
  rw [httpValidateRequestFraming_eq, httpValidateRequestFraming_eq, hjudged,
    hjudged, hlength, hlength, hencoding, hencoding,
    valuesOf_same h.headers, valuesOf_same h.headers]

theorem httpPrepareFile_same (rootFd : Fd) (response : HttpResponse)
    (closing : Bool) (w : World) :
    httpPrepareFile rootFd request response closing w =
      httpPrepareFile rootFd request' response closing w := by
  rw [httpPrepareFile, httpPrepareFile, h.path, h.method]

end SameRequest

/-- Two heads with the same request line and rest, whose header lines are
spellings of each other. -/
inductive Respelled : List Byte → List Byte → Prop
  | mk {requestLine rest : List Byte} {lines lines' : List (List Byte)}
      (hrequestLine : ¬ crlf <:+: requestLine)
      (hlines : List.Forall₂ SameLine lines lines')
      (hfree : ∀ line ∈ lines, ¬ crlf <:+: line)
      (hfree' : ∀ line ∈ lines', ¬ crlf <:+: line) :
      Respelled (requestText requestLine lines rest)
        (requestText requestLine lines' rest)

theorem Respelled.sameResult {head head' : List Byte}
    (h : Respelled head head') (config : ServerConfig) :
    SameResult (httpParseRequest (cstring head) config)
      (httpParseRequest (cstring head') config) := by
  cases h with
  | mk hrequestLine hlines hfree hfree' =>
      exact httpParseRequest_same config hrequestLine hlines hfree hfree' _

/-- Two spellings of a request are given the same response: all of its fields,
the decision to close and the effect on the world. -/
theorem spelling_cannot_change_answer {buffer buffer' : List Byte}
    {length length' : ℕ}
    (hspelling : Respelled (buffer.take length) (buffer'.take length'))
    (config : ServerConfig) (response : HttpResponse) (closing : Bool)
    (rootFd : Fd) (w : World) :
    httpPrepareResponse buffer length response closing rootFd config w =
      httpPrepareResponse buffer' length' response closing rootFd config w := by
  have hparsed := hspelling.sameResult config
  unfold httpPrepareResponse
  by_cases hconfig : ¬ httpConfigValid config = true
  · rw [if_pos hconfig, if_pos hconfig]
  rw [if_neg hconfig, if_neg hconfig]
  dsimp only
  generalize httpParseRequest (cstring (buffer.take length)) config =
    result at hparsed
  generalize httpParseRequest (cstring (buffer'.take length')) config =
    result' at hparsed
  cases hparsed with
  | error result => rfl
  | ok hrequest =>
      dsimp only
      rw [hrequest.method, hrequest.version, httpValidateHost_same hrequest,
        httpValidateRequestFraming_same hrequest, requestCloses_same hrequest]
      simp only [httpPrepareFile_same hrequest]

/-- One header, plainly spelled and with the white space of other senders. -/
def plainHead : List Byte :=
  ascii "GET / HTTP/1.1\r\nHost: a\r\n\r\n"

def respelledHead : List Byte :=
  ascii "GET / HTTP/1.1\r\nhOST:\t a \r\n\r\n"

theorem respelled_heads : Respelled plainHead respelledHead := by
  have hline : SameLine
      (ascii "Host" ++ colon :: (ascii " " ++ ascii "a" ++ []))
      (ascii "hOST" ++ colon :: (ascii "\t " ++ ascii "a" ++ ascii " ")) :=
    .respelled (ascii "a") (by decide +kernel) (by decide +kernel)
      (by decide +kernel) (by decide +kernel) (by decide +kernel)
      (by decide +kernel)
  have hrespelled : Respelled
      (requestText (ascii "GET / HTTP/1.1") [ascii "Host: a"] crlf)
      (requestText (ascii "GET / HTTP/1.1") [ascii "hOST:\t a "] crlf) :=
    .mk (by decide) (.cons hline .nil) (by decide) (by decide)
  exact hrespelled

theorem spelling_cannot_change_answer_heads :
    httpPrepareResponse plainHead 27 httpResponseInit false 3 configInit
        (start pipelined [(3, 0)]) =
      httpPrepareResponse respelledHead 29 httpResponseInit false 3 configInit
        (start pipelined [(3, 0)]) :=
  have hspelling : Respelled (plainHead.take 27) (respelledHead.take 29) :=
    respelled_heads
  spelling_cannot_change_answer hspelling configInit httpResponseInit false 3
    (start pipelined [(3, 0)])

end HttpCerver.Respelling
