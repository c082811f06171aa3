import PerfReview.Json.Basic
import PerfReview.Number.Amount

/-!
# Posts over the network

A post sends a JSON body to an address; it is delivered, or it ends in one of the ways in which the
network fails. The network is a state with one transition for each post. What is handed to it need
not get as far as the wire: a post that makes no message breaks before.
-/

namespace PerfReview.Http

structure Post where
  url : String
  /-- The headers, with names in small letters. -/
  headers : List (String × String)
  body : Json
  /-- The seconds after which the sender gives up. -/
  timeout : Amount

/-- How a post ends. -/
inductive Delivery where
  | body (bytes : List UInt8)
  | refused (status : Int) (reason : String) (detail : List UInt8)
  | unreachable (reason : String)
  | timedOut
  /-- The post makes no message, as with a line feed or a character beyond Latin-1 in a header, or with
  a blank or a port that is no number in the address; or the answer makes none. -/
  | broken (reason : String)
  /-- The post is never answered: the program is interrupted while it waits. -/
  | interrupted
  deriving DecidableEq, Repr

structure Network (σ : Type) where
  send : σ → Post → Delivery × σ

end PerfReview.Http
