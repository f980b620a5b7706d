/-
# Network routes

A route gives the response to one address. Inserting a route replaces the one of
the same address.

Key definitions: `FetchResponse`, `RouteTable`, `RouteTable.insert`,
`RouteTable.fetch`.
-/
import TaskHost.Host.Error

namespace TaskHost

/-- The response to a fetch. -/
structure FetchResponse where
  url : String
  status : Nat
  body : String
  deriving DecidableEq, Repr

/-- A response is a success if its status is from 200 to 299. -/
def FetchResponse.isSuccess (r : FetchResponse) : Bool := 200 ≤ r.status && r.status < 300

/-- The responses of the addresses that have a route. -/
structure RouteTable where
  routes : List FetchResponse
  deriving DecidableEq, Repr

namespace RouteTable

def empty : RouteTable := ⟨[]⟩

def size (t : RouteTable) : Nat := t.routes.length

def isEmpty (t : RouteTable) : Bool := t.routes.isEmpty

/-- Puts a route, instead of one of the same address. -/
def insert (t : RouteTable) (r : FetchResponse) : RouteTable :=
  ⟨r :: t.routes.filter fun old => old.url ≠ r.url⟩

/-- The response of an address that has a route. -/
def fetch (t : RouteTable) (url : String) : Except HostError FetchResponse :=
  match t.routes.find? fun r => r.url = url with
  | some r => .ok r
  | none => .error (.network url .noRoute)

end RouteTable
end TaskHost
