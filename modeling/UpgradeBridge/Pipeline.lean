/-
Pipelines: middleware in a fixed order in front of a terminal handler.

A middleware is given the rest of the pipeline as one handler, and decides
whether and how to call it.
-/
import UpgradeBridge.Program

namespace UpgradeBridge

/-- Serves a request on the response channel at hand. -/
abbrev Handler := Request → Program (Except HandlerError Unit)

/-- A stage in front of a handler. -/
abbrev Middleware := Handler → Handler

/-- Middleware in order, and the handler after them. -/
structure Pipeline where
  middleware : List Middleware := []
  handler : Handler

namespace Pipeline

/-- Adds a middleware after those already there. -/
def add (p : Pipeline) (m : Middleware) : Pipeline :=
  { p with middleware := p.middleware ++ [m] }

/-- The number of middleware. -/
def size (p : Pipeline) : Nat :=
  p.middleware.length

/-- There is no middleware. -/
def isEmpty (p : Pipeline) : Bool :=
  p.middleware.isEmpty

/-- The handler that the first of some middleware makes of those after it. -/
def chain : List Middleware → Handler → Handler
  | [], handler => handler
  | m :: rest, handler => m (chain rest handler)

/-- Serves a request from the first middleware on. -/
def serve (p : Pipeline) : Handler :=
  chain p.middleware p.handler

end Pipeline

end UpgradeBridge
