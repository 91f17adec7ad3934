/-
The octets of a response: a line with the version, the status and its reason, a
line for each header field, an empty line, and the body.

A response that is sent as a whole tells the length of its body. One that hands
the connection over has none.
-/
import UpgradeBridge.Channel.Stream
import UpgradeBridge.Request

namespace UpgradeBridge.Http1

open Header

/-- The end of a line. -/
def lineEnd : Bytes := [0x0d, 0x0a]

/-- The first line of a response. -/
def statusLine (isHttp11 : Bool) (status : Status) : Bytes :=
  utf8 ((if isHttp11 then "HTTP/1.1 " else "HTTP/1.0 ") ++ toString status.code ++ " " ++
    status.reason?.getD "<none>") ++ lineEnd

/-- The line of a header field. -/
def fieldLine (name : Name) (value : Value) : Bytes :=
  utf8 name.text ++ [0x3a, 0x20] ++ value.bytes ++ lineEnd

/-- The octets of a head. -/
def headBytes (isHttp11 : Bool) (status : Status) (headers : Headers) : Bytes :=
  statusLine isHttp11 status ++ headers.entries.flatMap (fun e => fieldLine e.1 e.2) ++ lineEnd

/-- Gives a name a text as its value, unless it has one. -/
def withDefault (headers : Headers) (name : Name) (text : String) : Headers :=
  if headers.contains name then headers
  else (Value.ofString? text).elim headers (headers.append name)

/-- The octets of a response that hands the connection over. -/
def upgradedBytes (isHttp11 : Bool) (date : String) (response : Response) : Bytes :=
  headBytes isHttp11 response.status (withDefault response.headers Name.date date)

/-- The header fields that frame a response that is sent as a whole. -/
def framed (date : String) (isLast : Bool) (response : Response) : Headers :=
  let headers := withDefault response.headers Name.date date
  let headers :=
    if response.status.allowsBody then
      withDefault headers Name.contentLength (toString response.body.length)
    else headers
  if isLast then withDefault headers Name.connection "close" else headers

/-- The octets of a response that is sent as a whole. Who asks for the head only gets no body. -/
def wholeBytes (isHttp11 : Bool) (date : String) (isLast : Bool) (method : Method)
    (response : Response) : Bytes :=
  headBytes isHttp11 response.status (framed date isLast response) ++
    if response.status.allowsBody && method ≠ Method.head then response.body else []

end UpgradeBridge.Http1
