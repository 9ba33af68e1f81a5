/-!
# HTTP methods

The methods a route handler can be registered for, with the names they are called by, the keys
they are stored under and the way they are printed.  `all` answers every method; it is stored
under the wildcard key.
-/

set_option autoImplicit false

namespace RouteAtlas

inductive HttpMethod
  | get
  | post
  | put
  | delete
  | patch
  | options
  | head
  | all
  deriving DecidableEq, Repr, Inhabited

namespace HttpMethod

/-- The key of a registration that answers every method. -/
def wildcardKey : String := "*"

/-- The methods a request can have: all but the wildcard. -/
def concrete : List HttpMethod :=
  [get, post, put, delete, patch, options, head]

/-- The method a member call such as `router.get(…)` registers for. -/
def ofCallName? : String → Option HttpMethod
  | "get" => some get
  | "post" => some post
  | "put" => some put
  | "delete" => some delete
  | "patch" => some patch
  | "options" => some options
  | "head" => some head
  | "all" => some all
  | _ => none

/-- The name of the member call that registers for the method. -/
def callName : HttpMethod → String
  | get => "get"
  | post => "post"
  | put => "put"
  | delete => "delete"
  | patch => "patch"
  | options => "options"
  | head => "head"
  | all => "all"

/-- The key a handler of the method is stored under. -/
def key : HttpMethod → String
  | all => wildcardKey
  | m => m.callName

/-- The keys of every method, the wildcard last. -/
def keys : List String :=
  concrete.map key ++ [wildcardKey]

/-- The printed form. -/
def display (m : HttpMethod) : String :=
  m.callName.toUpper

theorem ofCallName?_callName (m : HttpMethod) : ofCallName? m.callName = some m := by
  cases m <;> rfl

end HttpMethod

end RouteAtlas
