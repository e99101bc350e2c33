import AgentGraph.Api.Endpoints
import AgentGraph.Foundation.Transition

/-! # Browsers and the server

The pages of a browser share its cookies, and a page reads the replies to its own requests only
if it has an origin of the server. Any page sends any request; the browser adds the cookie and the
origin. The requests run a stage at a time, in any order.
-/
set_option autoImplicit false
namespace AgentGraph.Api.Gateway
open Security hiding Settings Label step require
open Security.Operations hiding Label step
open Transition

structure Page where
  browser : Nat
  origin : Option String
  /-- The tokens that the page has been told. -/
  tokens : List String

structure Exchange where
  request : HttpRequest
  /-- The database when the request arrived. -/
  found : SecurityDb
  stage : Stage

/-- A service was called for a request. -/
structure Call where
  exchange : Nat
  principal : Option SessionPrincipal

structure Web where
  db : SecurityDb
  cookies : Nat → Option String
  pages : List Page
  exchanges : List Exchange
  calls : List Call

inductive Label
  | open_ (browser : Nat) (origin : Option String)
  | send (page : Nat) (endpoint : Endpoint) (csrf : Option String) (loopback : Bool)
  | resume (exchange : Nat) (chance : Chance)
  | receive (exchange : Nat)

namespace Web
variable (settings : Settings)

def setStage (web : Web) (i : Nat) (stage : Stage) : Web :=
  { web with exchanges := web.exchanges.modify i fun exchange => { exchange with stage := stage } }

def commit (web : Web) (db : Option SecurityDb) : Web := { web with db := db.getD web.db }

def resume (web : Web) (i : Nat) (exchange : Exchange) (chance : Chance) : Option Web :=
  match exchange.stage with
  | .arrived => some (web.setStage i (authenticateRequest settings chance web.db exchange.request))
  | .handling principal => some (web.setStage i (handle settings chance web.db exchange.request principal))
  | .managing p operation =>
    let (db,stage) := manage web.db exchange.request p operation
    some ((web.commit db).setStage i stage)
  | .acting principal operation =>
    let (db,reply) := act settings chance web.db exchange.request principal operation
    some { (web.commit db).setStage i (.answered reply) with calls := web.calls ++ [⟨i,principal⟩] }
  | .answered _ | .delivered _ => none

def keepCookie (cookies : Nat → Option String) (browser : Nat) : Option Cookie → Nat → Option String
  | none => cookies
  | some (.set token) => Function.update cookies browser (some token)
  | some .deleted => Function.update cookies browser none

/-- The browser keeps the cookie; `rememberSession` of a page that can read the reply keeps its token. That only the pages
of the server's origins can is the same-origin rule of browsers; the server sends no CORS headers. -/
def deliver (web : Web) (i : Nat) (exchange : Exchange) (reply : Reply) (page : Page) : Web :=
  { web.setStage i (.delivered reply) with
    cookies := keepCookie web.cookies page.browser reply.cookie
    pages :=
      if settings.allowedOrigins.contains page.origin then
        web.pages.modify exchange.request.page fun page => { page with tokens := reply.csrfToken.toList ++ page.tokens }
      else web.pages }

end Web

def step (settings : Settings) : Label → Web → Option Web
  | .open_ browser origin, web => some { web with pages := web.pages ++ [⟨browser,origin,[]⟩] }
  | .send page endpoint csrf loopback, web =>
    web.pages[page]?.map fun sender =>
      { web with exchanges := web.exchanges ++
          [⟨⟨page,endpoint,sender.origin,web.cookies sender.browser,csrf,loopback⟩,web.db,.arrived⟩] }
  | .resume i chance, web => web.exchanges[i]?.bind fun exchange => web.resume settings i exchange chance
  | .receive i, web =>
    web.exchanges[i]?.bind fun exchange =>
      match exchange.stage with
      | .answered reply =>
        web.pages[exchange.request.page]?.map fun page =>
          -- the server hangs up on a reply that it cannot send
          if reply.status.isNone then web.setStage i (.delivered reply) else web.deliver settings i exchange reply page
      | _ => none

def start (db : SecurityDb) : Web := ⟨db,fun _ => none,[],[],[]⟩

/-- The token that a page sends has been told to it, or is no session's: none can be guessed. -/
def Unguessed (settings : Settings) : Label → Web → Prop
  | .send page _ (some csrf) _, web =>
    (∃ sender, web.pages[page]? = some sender ∧ csrf ∈ sender.tokens) ∨ ∀ s, csrf ≠ settings.csrfToken s
  | _, _ => True

end AgentGraph.Api.Gateway
