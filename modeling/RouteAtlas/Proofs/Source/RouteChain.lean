import RouteAtlas.Proofs.Source.StatementOrder

/-!
# Chains of registrations

`x.route('/p').get(…).post(…)` registers a handler for every call behind the first, however long the
chain is.  Each call of the chain is visited by itself and looks down the chain for its beginning, so
what is to be seen is that every call is visited once and finds the same beginning.  A link that is
no call of a method ends the chain: what is called behind it registers nothing
(`registrations_routeChain`).
-/

set_option autoImplicit false

namespace RouteAtlas

open Syntax

namespace Finding

/-! ## Trees that register nothing -/

/-- A tree in which nothing is registered. -/
def Quiet (t : Tree) : Prop :=
  ∀ name r, registered name r ∉ ofTree t

/-- A child that has only quiet trees beside it. -/
def Alone (c t : Tree) : Prop :=
  ∃ before after, t.children = before ++ c :: after ∧ ∀ d ∈ before ++ after, Quiet d

variable {name receiver path : String} {t e c object property : Tree}

theorem registrationsOn_flatMap_of_quiet {cs : List Tree} (h : ∀ d ∈ cs, Quiet d) :
    registrationsOn name (cs.flatMap ofTree) = [] := by
  rw [registrationsOn_flatMap, List.flatMap_eq_nil_iff]
  exact fun d hd => registrationsOn_eq_nil_iff.mpr (h d hd name)

/-- Beside quiet trees a child is all there is, but for the node itself. -/
theorem Alone.registrationsOn_eq (h : Alone c t) :
    registrationsOn name (ofTree t) =
      registrationsOn name (ofNode t) ++ registrationsOn name (ofTree c) := by
  obtain ⟨before, after, hchildren, hquiet⟩ := h
  have hbefore : registrationsOn name (before.flatMap ofTree) = [] :=
    registrationsOn_flatMap_of_quiet fun d hd => hquiet d (List.mem_append_left _ hd)
  have hafter : registrationsOn name (after.flatMap ofTree) = [] :=
    registrationsOn_flatMap_of_quiet fun d hd => hquiet d (List.mem_append_right _ hd)
  rw [ofTree_eq, hchildren, List.flatMap_append, List.flatMap_cons, registrationsOn_append,
    registrationsOn_append, registrationsOn_append, hbefore, hafter, List.nil_append,
    List.append_nil]

/-- Only calls register. -/
theorem registrationsOn_ofNode_of_ne_call (h : t.kind ≠ .call) :
    registrationsOn name (ofNode t) = [] :=
  registrationsOn_eq_nil_iff.mpr fun _ hr => h (registered_mem_ofNode_iff.mp hr).1

/-! ## Links -/

/-- A call of a member of an object, where nothing is registered beside the object. -/
structure Link (object property t : Tree) : Prop where
  call : t.kind = .call
  access : ∃ callee, t.child? .callee = some callee ∧ callee.kind = .member ∧
    callee.child? .object = some object ∧ callee.child? .property = some property ∧
    Alone callee t ∧ Alone object callee

theorem Link.calledMember? (h : Link object property t) :
    calledMember? t = some (object, property) := by
  obtain ⟨callee, hcallee, hmember, hobject, hproperty, -, -⟩ := h.access
  rw [Finding.calledMember?, hcallee, Option.bind_some, if_pos hmember, hobject, Option.bind_some,
    hproperty, Option.map_some]

/-- A link registers what the call registers, behind which comes what the object registers. -/
theorem Link.registrationsOn_eq (h : Link object property t) :
    registrationsOn name (ofTree t) =
      registrationsOn name (ofCall t) ++ registrationsOn name (ofTree object) := by
  obtain ⟨callee, -, hmember, -, -, houter, hinner⟩ := h.access
  have hnode : ofNode t = ofCall t := by
    unfold ofNode
    rw [h.call]
  rw [houter.registrationsOn_eq, hnode, hinner.registrationsOn_eq,
    registrationsOn_ofNode_of_ne_call (by rw [hmember]; decide), List.nil_append]

/-- The calls of a chain `name.route('path').get(…).post(…)`, from the first to the last.  Nothing
is registered in their arguments. -/
inductive RouteChain (name path : String) : List (HttpMethod × Tree) → Tree → Prop
  | route {t object property first : Tree} (hlink : Link object property t)
      (hname : object.kind = .identifier) (htext : object.text = name) (hquiet : Quiet object)
      (hroute : property.text = "route") (hfirst : t.callArguments.head? = some first)
      (hpath : first.literal? = some path) : RouteChain name path [] t
  | method {t object property : Tree} {calls : List (HttpMethod × Tree)} {m : HttpMethod}
      (h : RouteChain name path calls object) (hlink : Link object property t)
      (hmethod : HttpMethod.ofCallName? property.text = some m) :
      RouteChain name path (calls ++ [(m, t)]) t

/-- An expression that goes on from another one, but not by a call of a method: a call of another
member, a call of the expression itself, an access or anything else that holds it. -/
inductive Departs (e : Tree) : Tree → Prop
  | called {t property : Tree} (hlink : Link e property t)
      (hmethod : HttpMethod.ofCallName? property.text = none) : Departs e t
  | applied {t : Tree} (hcall : t.kind = .call) (hcallee : t.child? .callee = some e)
      (hmember : e.kind ≠ .member) (h : Alone e t) : Departs e t
  | held {t : Tree} (hcall : t.kind ≠ .call) (hname : t.kind ≠ .identifier) (h : Alone e t) :
      Departs e t

/-- A chain that has ended behind these calls, and whatever follows, calls of methods too. -/
inductive EndedChain (name path : String) (calls : List (HttpMethod × Tree)) : Tree → Prop
  | ended {t e : Tree} (h : RouteChain name path calls e) (hend : Departs e t) :
      EndedChain name path calls t
  | departs {t e : Tree} (h : EndedChain name path calls e) (hnext : Departs e t) :
      EndedChain name path calls t
  | link {t e property : Tree} (h : EndedChain name path calls e) (hlink : Link e property t) :
      EndedChain name path calls t

/-! ## What the calls of a chain register -/

/-- The handlers that the calls of a chain register, in the order in which a walk comes by them:
the last call is the outermost. -/
def handlers (path : String) (calls : List (HttpMethod × Tree)) : List Registration :=
  (calls.map fun (m, call) => .handler m path (mentioned call.callArguments)).reverse

variable {calls : List (HttpMethod × Tree)}

theorem RouteChain.kind_eq (h : RouteChain name path calls t) : t.kind = .call := by
  cases h with
  | route hlink => exact hlink.call
  | method _ hlink => exact hlink.call

theorem RouteChain.chain (h : RouteChain name path calls t) : Chain name path t := by
  induction h with
  | route hlink hname htext _ hroute hfirst hpath =>
    exact .route hlink.call hlink.calledMember? hname htext hroute hfirst hpath
  | method _ hlink hmethod ih => exact .method hlink.call hlink.calledMember? hmethod ih

theorem registrationsOn_registration {make : List String → Registration} {given : List Tree} :
    registrationsOn receiver (registration name make given) =
      if receiver = name then [make (mentioned given)] else [] := by
  have hrequired : registrationsOn receiver
      ((Mention.requirements (Mention.ofTrees given)).map required) = [] := by
    rw [registrationsOn_eq_nil_iff]
    intro r hr
    obtain ⟨_, -, h⟩ := List.mem_map.mp hr
    cases h
  by_cases hname : receiver = name
  · rw [if_pos hname, ← hrequired]
    exact List.filterMap_cons_some (if_pos hname.symm)
  · rw [if_neg hname, ← hrequired]
    exact List.filterMap_cons_none (if_neg (Ne.symm hname))

/-- The call `name.route(…)` itself registers nothing. -/
theorem Link.ofCall_route (h : Link object property t) (hname : object.kind = .identifier)
    (hroute : property.text = "route") : ofCall t = [] := by
  rw [ofCall_eq, h.calledMember?, Option.elim_some]
  dsimp only
  rw [if_pos hname, hroute]
  rfl

/-- A call of a method on a chain registers one handler, at the beginning of the chain. -/
theorem Link.ofCall_method (h : Link object property t) (hchain : Chain name path object)
    {m : HttpMethod} (hmethod : HttpMethod.ofCallName? property.text = some m) :
    ofCall t = registration name (.handler m path) t.callArguments := by
  rw [ofCall_eq, h.calledMember?, Option.elim_some]
  dsimp only
  rw [if_neg hchain.kind_ne_identifier, hmethod, chainBase?_eq_some_iff.mpr hchain]
  rfl

/-- Every call of a chain registers its handler, and nothing else is registered. -/
theorem RouteChain.registrationsOn_eq (h : RouteChain name path calls t) :
    registrationsOn receiver (ofTree t) = if receiver = name then handlers path calls else [] := by
  induction h with
  | route hlink hname _ hquiet hroute =>
    rw [hlink.registrationsOn_eq, hlink.ofCall_route hname hroute,
      registrationsOn_eq_nil_iff.mpr (hquiet receiver)]
    exact (ite_self []).symm
  | @method t object property calls m h hlink hmethod ih =>
    rw [hlink.registrationsOn_eq, hlink.ofCall_method h.chain hmethod,
      registrationsOn_registration, ih]
    by_cases hname : receiver = name
    · rw [if_pos hname, if_pos hname, if_pos hname, handlers, handlers, List.map_append,
        List.reverse_append]
      rfl
    · rw [if_neg hname, if_neg hname, if_neg hname, List.append_nil]

/-! ## Behind the end of a chain -/

/-- An expression that no call behind it can register anything through. -/
def Mute (e : Tree) : Prop :=
  e.kind ≠ .identifier ∧ ∀ name path, ¬ Chain name path e

/-- A call of a member registers nothing, and nothing can be registered through it, when the member
is no method or the object is no chain. -/
theorem Link.silent (h : Link e property t) (hkind : e.kind ≠ .identifier)
    (hstop : ∀ m name path, HttpMethod.ofCallName? property.text = some m → ¬ Chain name path e) :
    (∀ receiver, registrationsOn receiver (ofTree t) = registrationsOn receiver (ofTree e)) ∧
      Mute t := by
  have hcall : ofCall t = [] := by
    rw [ofCall_eq, h.calledMember?, Option.elim_some]
    dsimp only
    rw [if_neg hkind]
    cases hmethod : HttpMethod.ofCallName? property.text with
    | none => rfl
    | some m =>
      have hbase : chainBase? e = none := by
        rw [Option.eq_none_iff_forall_ne_some]
        rintro ⟨name, path⟩ hbase
        exact hstop m name path hmethod (chainBase?_eq_some_iff.mp hbase)
      rw [hbase]
      rfl
  refine ⟨fun receiver => by rw [h.registrationsOn_eq, hcall]; rfl, ?_, ?_⟩
  · rw [h.call]
    decide
  · intro name path hchain
    cases hchain with
    | route _ hmember hname =>
      cases h.calledMember?.symm.trans hmember
      exact hkind hname
    | method _ hmember hmethod hchain =>
      cases h.calledMember?.symm.trans hmember
      exact hstop _ name path hmethod hchain

/-- Where a chain departs from its form nothing is registered, and nothing can be behind it. -/
theorem Departs.silent (h : Departs e t) (hkind : e.kind ≠ .identifier) :
    (∀ receiver, registrationsOn receiver (ofTree t) = registrationsOn receiver (ofTree e)) ∧
      Mute t := by
  cases h with
  | called hlink hnone =>
    exact hlink.silent hkind fun m _ _ hmethod => by cases hnone.symm.trans hmethod
  | applied hcall hcallee hmember h =>
    have hnone : Finding.calledMember? t = none := by
      rw [Finding.calledMember?, hcallee, Option.bind_some, if_neg hmember]
    have hnode : ofNode t = [] := by
      unfold ofNode
      rw [hcall]
      dsimp only
      rw [ofCall_eq, hnone]
      rfl
    refine ⟨fun receiver => by rw [h.registrationsOn_eq, hnode]; rfl, ?_, ?_⟩
    · rw [hcall]
      decide
    · intro name path hchain
      cases hchain with
      | route _ hsome => cases hnone.symm.trans hsome
      | method _ hsome => cases hnone.symm.trans hsome
  | held hcall hname h =>
    refine ⟨fun receiver => ?_, hname, ?_⟩
    · rw [h.registrationsOn_eq, registrationsOn_ofNode_of_ne_call hcall, List.nil_append]
    · intro name path hchain
      cases hchain with
      | route hkind => exact hcall hkind
      | method hkind => exact hcall hkind

/-- What follows the end of a chain adds nothing to what its calls register. -/
theorem EndedChain.registrationsOn_eq (h : EndedChain name path calls t) :
    (∀ receiver, registrationsOn receiver (ofTree t) =
      if receiver = name then handlers path calls else []) ∧ Mute t := by
  induction h with
  | ended h hend =>
    obtain ⟨hsame, hmute⟩ := hend.silent (by rw [h.kind_eq]; decide)
    exact ⟨fun receiver => (hsame receiver).trans h.registrationsOn_eq, hmute⟩
  | departs _ hnext ih =>
    obtain ⟨hsame, hmute⟩ := hnext.silent ih.2.1
    exact ⟨fun receiver => (hsame receiver).trans (ih.1 receiver), hmute⟩
  | link _ hlink ih =>
    obtain ⟨hsame, hmute⟩ := hlink.silent ih.2.1 fun _ name path _ => ih.2.2 name path
    exact ⟨fun receiver => (hsame receiver).trans (ih.1 receiver), hmute⟩

/-- **A chain of any length registers every one of its calls**: a walk over
`name.route('path').m₁(…)…mₙ(…)` finds `n` handlers for the name, all at the path, one for each call
with its method and what its arguments mention, and nothing for any other name.  When the chain ends
in another link, this is all that is found in what follows. -/
theorem registrations_routeChain
    (h : RouteChain name path calls t ∨ EndedChain name path calls t) :
    (registrations (ofTree t)).get? receiver =
      if receiver = name ∧ calls ≠ [] then some (handlers path calls) else none := by
  have hon : registrationsOn receiver (ofTree t) =
      if receiver = name then handlers path calls else [] := by
    rcases h with h | h
    · exact h.registrationsOn_eq
    · exact h.registrationsOn_eq.1 receiver
  have hnil : handlers path calls = [] ↔ calls = [] := by
    rw [handlers, List.reverse_eq_nil_iff, List.map_eq_nil_iff]
  rw [get?_registrations, hon]
  by_cases hname : receiver = name
  · rw [if_pos hname]
    by_cases hcalls : calls = []
    · rw [if_pos (hnil.mpr hcalls), if_neg fun h => h.2 hcalls]
    · rw [if_neg (mt hnil.mp hcalls), if_pos ⟨hname, hcalls⟩]
  · rw [if_neg hname, if_pos rfl, if_neg fun h => hname h.1]

/-! ## A chain as it is written -/

/-- `object.word(…)` -/
def callOf (object : Tree) (word : String) (given : List Tree) : Tree :=
  .node .call .object "" [
    .node .member .callee "" [object, .node .propertyName .property word []],
    .node .arguments .arguments "" given]

theorem quiet_of_ofTree_eq_nil (h : ofTree t = []) : Quiet t := by
  intro name r hr
  rw [h] at hr
  cases hr

/-- A call of a member is a link when nothing is registered in its arguments. -/
theorem link_callOf {object : Tree} {given : List Tree} (word : String)
    (hobject : object.label = .object) (hgiven : ∀ d ∈ given, Quiet d) :
    Link object (.node .propertyName .property word []) (callOf object word given) where
  call := rfl
  access := by
    refine ⟨_, rfl, rfl, List.find?_cons_of_pos (decide_eq_true hobject), ?_, ?_, ?_⟩
    · exact List.find?_cons_of_neg (by rw [hobject]; decide)
    · refine ⟨[], [_], rfl, fun d hd name r hr => ?_⟩
      rw [List.mem_singleton.mp hd, ofTree_eq] at hr
      obtain ⟨d, hd, hr⟩ := List.mem_flatMap.mp hr
      exact hgiven d hd name r hr
    · refine ⟨[], [_], rfl, fun d hd => quiet_of_ofTree_eq_nil ?_⟩
      rw [List.mem_singleton.mp hd]
      rfl

/-- A name in an argument list. -/
def argument (name : String) : Tree :=
  .node .identifier .plain name []

/-- `router.route('/items')` -/
def itemsRoute : Tree :=
  callOf (.node .identifier .object "router" []) "route" [.node .string .plain "'/items'" []]

/-- `router.route('/items').get(list)` -/
def listedItems : Tree :=
  callOf itemsRoute "get" [argument "list"]

/-- `router.route('/items').get(list).post(guard, create)` -/
def servedItems : Tree :=
  callOf listedItems "post" [argument "guard", argument "create"]

/-- `router.route('/items').get(list).post(guard, create).listen().put(replace)` -/
def endedItems : Tree :=
  callOf (callOf servedItems "listen" []) "put" [argument "replace"]

/-- The two calls of the chain are registered, and the call of `put` behind `listen` is not. -/
theorem registrations_routeChain_items :
    let calls := [(HttpMethod.get, listedItems), (.post, servedItems)]
    RouteChain "router" "/items" calls servedItems ∧
      EndedChain "router" "/items" calls endedItems ∧
      ∀ t, t = servedItems ∨ t = endedItems →
        (registrations (ofTree t)).get? "router" =
          some [.handler .post "/items" ["guard", "create"], .handler .get "/items" ["list"]] := by
  have hquiet (names : List String) : ∀ d ∈ names.map argument, Quiet d := by
    intro d hd
    obtain ⟨name, -, rfl⟩ := List.mem_map.mp hd
    exact quiet_of_ofTree_eq_nil rfl
  have hroute : RouteChain "router" "/items" [] itemsRoute := by
    refine .route (link_callOf "route" rfl fun d hd => ?_) rfl rfl (quiet_of_ofTree_eq_nil rfl)
      rfl rfl (by decide)
    exact List.mem_singleton.mp hd ▸ quiet_of_ofTree_eq_nil rfl
  have hlisted : RouteChain "router" "/items" ([] ++ [(.get, listedItems)]) listedItems :=
    .method hroute (link_callOf "get" rfl (hquiet ["list"])) rfl
  have hserved : RouteChain "router" "/items"
      ([(.get, listedItems)] ++ [(.post, servedItems)]) servedItems :=
    .method hlisted (link_callOf "post" rfl (hquiet ["guard", "create"])) rfl
  have hended : EndedChain "router" "/items" [(.get, listedItems), (.post, servedItems)]
      endedItems :=
    .link (.ended hserved (.called (link_callOf "listen" rfl (hquiet [])) rfl))
      (link_callOf "put" rfl (hquiet ["replace"]))
  refine ⟨hserved, hended, ?_⟩
  rintro t (rfl | rfl)
  · exact (registrations_routeChain (.inl hserved)).trans (by decide)
  · exact (registrations_routeChain (.inr hended)).trans (by decide)

/-- The text of the second. -/
example :
    registrationsOn "router" (ofTree (tree .typed
        "router.route('/items').get(list).post(guard, create).listen().put(replace);")) =
      [.handler .post "/items" ["guard", "create"], .handler .get "/items" ["list"]] := by
  decide +kernel

end Finding

end RouteAtlas
