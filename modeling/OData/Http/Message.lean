/-
# Requests and responses

What is handed to the transport, and what comes back. A request announces the
length of its body; an empty body of a response counts as none.
-/

import OData.Http.Headers
import OData.Text.Utf8

namespace OData.Http

/-- A request to a host. -/
structure Request where
  method : String
  /-- Path and query below the host. -/
  target : String
  headers : Headers
  body : Option ByteArray

/-- The media type of every body. -/
def jsonType : String := "application/json"

namespace Request

/-- A request without a body. -/
def empty (method target : String) : Request :=
  ⟨method, target, Headers.empty.set "Content-Length" "0", none⟩

/-- A request with a body of a media type. -/
def withBody (method target mediaType : String) (body : ByteArray) : Request :=
  ⟨method, target,
    (Headers.empty.set "Content-Length" (toString body.size)).set "Content-Type" mediaType,
    some body⟩

/-- A request with a body, if there is one. -/
def ofBody (method target : String) : Option (String × ByteArray) → Request
  | none => empty method target
  | some (mediaType, body) => withBody method target mediaType body

/-- Set a header. -/
def setHeader (request : Request) (name value : String) : Request :=
  { request with headers := request.headers.set name value }

/-- Ask for JSON from a host. -/
def accepting (request : Request) (host : String) : Request :=
  (request.setHeader "Accept" jsonType).setHeader "Host" host

end Request

/-- A response of a server. -/
structure Response where
  status : Nat
  headers : Headers
  body : Option ByteArray

namespace Response

/-- The status says that all went well. -/
def isSuccess (response : Response) : Bool := 200 ≤ response.status && response.status < 300

/-- The body, unless it is empty. -/
def content? (response : Response) : Option ByteArray :=
  response.body.filter fun body => body.size != 0

/-- The body as text, unless it is empty. -/
def contentText? (response : Response) : Option String := response.content?.map Text.shown

end Response

end OData.Http
