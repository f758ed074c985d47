import Mathlib.Data.List.Nodup
import Netcf.Linux.Nodes

set_option autoImplicit false

-- The addresses of an interface in its live state (add_ip_info of dutil_linux.c).  The callback keeps a
-- pointer to the protocol element of each family, which it looks for only as long as it has none.
namespace Netcf.Linux.Live

open Shared.Faulty Shared.Xml

section Program

variable {δ : Type}

-- AF_INET, AF_INET6 and all others.
inductive Family
  | inet | inet6
  | other (number : Nat)
  deriving DecidableEq

def Family.str : Family → Option String
  | .inet => some "ipv4"
  | .inet6 => some "ipv6"
  | .other _ => none

-- An object of the address cache, with its local address.
structure RtnlAddr where
  ifindex : Nat
  family : Family
  binary : List UInt8
  prefixlen : Nat

structure Protocols where
  protov4 : Option Nat
  protov6 : Option Nat

def Protocols.get (protocols : Protocols) : Family → Option Nat
  | .inet => protocols.protov4
  | .inet6 => protocols.protov6
  | .other _ => none

def Protocols.set (protocols : Protocols) (place : Nat) : Family → Protocols
  | .inet => { protocols with protov4 := some place }
  | .inet6 => { protocols with protov6 := some place }
  | .other _ => protocols

-- xmlGetProp returns a copy, and an element whose copy fails is passed over.
def findProtocol (familyStr : String) : Nat → List Node → Fill δ (Option Nat)
  | _, [] => return none
  | place, .element name attributes _ :: rest => do
    if name = "protocol" then
      match getProp attributes "family" with
      | none => findProtocol familyStr (place + 1) rest
      | some value =>
        if ← allocFails then findProtocol familyStr (place + 1) rest
        else if value = familyStr then return some place
        else findProtocol familyStr (place + 1) rest
    else findProtocol familyStr (place + 1) rest
  | place, .other _ :: rest => findProtocol familyStr (place + 1) rest

def protocolNode (family : Family) (familyStr : String) : Fill Protocols Nat := do
  let s ← get
  match s.data.get family with
  | some place => return place
  | none =>
    match ← findProtocol familyStr 0 s.children with
    | some place =>
      modify fun s => { s with data := s.data.set place family }
      return place
    | none =>
      let place ← errNomem (xmlNewNode "protocol")
      modify fun s => { s with data := s.data.set place family }
      within place (errNomem (xmlSetProp "family" familyStr))
      return place

variable (inetNtop : Family → List UInt8 → String)

def addIpInfoCb (addr : RtnlAddr) : Fill Protocols Unit := untilError () do
  match addr.family.str with
  | none => return
  | some familyStr =>
    let proto ← protocolNode addr.family familyStr
    within proto do
      let ipNode ← errNomem (xmlNewNode "ip")
      within ipNode do
        errNomem (xmlSetProp "address" (inetNtop addr.family addr.binary))
        errNomem (xmlSetProp "prefix" (toString addr.prefixlen))

def addIpInfo (addrCache : List RtnlAddr) (ifindex : Nat) : Fill δ Unit := untilError () do
  if ← allocFails then nomem
  foreach (addrCache.filter (·.ifindex = ifindex)) ⟨none, none⟩ (addIpInfoCb inetNtop)

end Program

section Inserting

def isProtocol (familyStr : String) : Node → Bool
  | .element name attributes _ => name = "protocol" && getProp attributes "family" = some familyStr
  | .other _ => false

def Node.append (nodes : List Node) : Node → Node
  | .element name attributes children => .element name attributes (children ++ nodes)
  | .other text => .other text

def protocol (familyStr : String) (ips : List Node) : Node :=
  .element "protocol" [("family", familyStr)] ips

variable (inetNtop : Family → List UInt8 → String)

def ipElement (addr : RtnlAddr) : Node :=
  .element "ip" [("address", inetNtop addr.family addr.binary), ("prefix", toString addr.prefixlen)] []

def insertIp (familyStr : String) (ip : Node) (children : List Node) : List Node :=
  match children.findIdx? (isProtocol familyStr) with
  | some place => children.modify place (Node.append [ip])
  | none => children ++ [protocol familyStr [ip]]

def insertAddress (children : List Node) (addr : RtnlAddr) : List Node :=
  match addr.family.str with
  | none => children
  | some familyStr => insertIp familyStr (ipElement inetNtop addr) children

theorem isProtocol_append (familyStr : String) (nodes : List Node) (node : Node) :
    isProtocol familyStr (node.append nodes) = isProtocol familyStr node := by
  cases node <;> rfl

theorem findIdx_modify (familyStr : String) (place : Nat) (nodes children : List Node) :
    (children.modify place (Node.append nodes)).findIdx? (isProtocol familyStr) =
      children.findIdx? (isProtocol familyStr) := by
  induction children generalizing place with
  | nil => rw [List.modify_nil]
  | cons child rest ih =>
    cases place with
    | zero => rw [List.modify_zero_cons, List.findIdx?_cons, List.findIdx?_cons, isProtocol_append]
    | succ place => rw [List.modify_succ_cons, List.findIdx?_cons, List.findIdx?_cons, ih]

theorem isProtocol_protocol (familyStr other : String) (ips : List Node) :
    isProtocol other (protocol familyStr ips) = decide (familyStr = other) := by
  by_cases same : familyStr = other <;> simp [isProtocol, protocol, getProp, same]

end Inserting

section Callback

variable {δ : Type} {inetNtop : Family → List UInt8 → String}

theorem findProtocol_calm {s : Filling δ} (calm : s.faults = []) (familyStr : String) (place : Nat)
    (children : List Node) :
    findProtocol familyStr place children s =
      .ok ((children.findIdx? (isProtocol familyStr)).map (place + ·)) s := by
  induction children generalizing place with
  | nil => rfl
  | cons child rest ih =>
    have later : findProtocol familyStr (place + 1) rest s =
        .ok (((rest.findIdx? (isProtocol familyStr)).map (· + 1)).map (place + ·)) s := by
      rw [ih, Option.map_map]
      congr 2
      funext i
      change place + 1 + i = place + (i + 1)
      omega
    rw [List.findIdx?_cons]
    cases child with
    | other text => exact later
    | element name attributes children =>
      rw [findProtocol, isProtocol]
      by_cases named : name = "protocol"
      · rw [if_pos named, decide_eq_true named, Bool.true_and]
        cases own : getProp attributes "family" with
        | none =>
          dsimp only
          rw [later]
          rfl
        | some value =>
          dsimp only
          rw [bind_of_ok _ (allocFails_calm calm), if_neg Bool.false_ne_true]
          by_cases same : value = familyStr
          · rw [if_pos same, same, decide_eq_true rfl]
            rfl
          · have unlike : ¬some value = some familyStr := fun equal => same (Option.some.inj equal)
            rw [if_neg same, decide_eq_false unlike, later]
            rfl
      · rw [if_neg named, decide_eq_false named, Bool.false_and, later]
        rfl

-- Every pointer leads to the protocol element that a search would find.
def Tied (protocols : Protocols) (children : List Node) : Prop :=
  ∀ family familyStr place, family.str = some familyStr → protocols.get family = some place →
    children.findIdx? (isProtocol familyStr) = some place

theorem get_set (protocols : Protocols) (place : Nat) {family : Family} {familyStr : String}
    (known : family.str = some familyStr) : (protocols.set place family).get family = some place := by
  cases family with
  | inet | inet6 => rfl
  | other => cases known

theorem get_set_other (protocols : Protocols) (place : Nat) {family other : Family} (apart : family ≠ other) :
    (protocols.set place family).get other = protocols.get other := by
  cases family <;> cases other <;> first | rfl | exact absurd rfl apart

theorem Tied.set {protocols : Protocols} {children : List Node} (tied : Tied protocols children) {family : Family}
    {familyStr : String} {place : Nat} (known : family.str = some familyStr)
    (found : children.findIdx? (isProtocol familyStr) = some place) :
    Tied (protocols.set place family) children := by
  intro other otherStr there known' pointer
  by_cases same : family = other
  · subst same
    rw [get_set _ _ known] at pointer
    cases pointer
    cases known.symm.trans known'
    exact found
  · rw [get_set_other _ _ same] at pointer
    exact tied other otherStr there known' pointer

theorem Tied.modify {protocols : Protocols} {children : List Node} (tied : Tied protocols children) (place : Nat)
    (nodes : List Node) : Tied protocols (children.modify place (Node.append nodes)) := by
  intro family familyStr there known pointer
  rw [findIdx_modify]
  exact tied family familyStr there known pointer

theorem Tied.grown {protocols : Protocols} {children : List Node} (tied : Tied protocols children) (more : List Node) :
    Tied protocols (children ++ more) := by
  intro family familyStr there known pointer
  rw [List.findIdx?_append, tied family familyStr there known pointer]
  rfl

theorem findIdx_new {familyStr : String} {children : List Node}
    (absent : children.findIdx? (isProtocol familyStr) = none) (ips : List Node) :
    (children ++ [protocol familyStr ips]).findIdx? (isProtocol familyStr) = some children.length := by
  rw [List.findIdx?_append, absent, List.findIdx?_singleton, isProtocol_protocol, decide_eq_true rfl]
  simp

theorem node_at {familyStr : String} {children : List Node} {place : Nat}
    (found : children.findIdx? (isProtocol familyStr) = some place) :
    ∃ name attributes inner, children[place]? = some (.element name attributes inner) := by
  obtain ⟨bound, holds, _⟩ := List.findIdx?_eq_some_iff_getElem.mp found
  rw [List.getElem?_eq_getElem bound]
  cases node : children[place] with
  | element name attributes inner => exact ⟨name, attributes, inner, rfl⟩
  | other text =>
    rw [node] at holds
    cases holds

-- With an element for the family, new or old.
def withProtocol (familyStr : String) (children : List Node) : List Node :=
  match children.findIdx? (isProtocol familyStr) with
  | some _ => children
  | none => children ++ [protocol familyStr []]

theorem insertIp_eq {familyStr : String} {children : List Node} {place : Nat}
    (found : (withProtocol familyStr children).findIdx? (isProtocol familyStr) = some place) (ip : Node) :
    insertIp familyStr ip children = (withProtocol familyStr children).modify place (Node.append [ip]) := by
  unfold withProtocol at *
  unfold insertIp
  cases search : children.findIdx? (isProtocol familyStr) with
  | some there =>
    rw [search] at found
    dsimp only at found
    rw [search] at found
    cases found
    rfl
  | none =>
    rw [search] at found
    dsimp only at found ⊢
    rw [findIdx_new search] at found
    cases found
    rw [List.modify_eq_take_drop, List.take_left, List.drop_left]
    rfl

-- The pointer is that of the family's element, which is there afterwards.
theorem protocolNode_calm {s : Filling Protocols} (calm : s.faults = []) (tied : Tied s.data s.children)
    {family : Family} {familyStr : String} (known : family.str = some familyStr) :
    ∃ place data, protocolNode family familyStr s =
        .ok place { s with children := withProtocol familyStr s.children, data := data } ∧
      Tied data (withProtocol familyStr s.children) ∧
      (withProtocol familyStr s.children).findIdx? (isProtocol familyStr) = some place := by
  unfold protocolNode withProtocol
  rw [bind_of_ok _ (get_run s)]
  cases pointer : s.data.get family with
  | some place =>
    have found := tied family familyStr place known pointer
    rw [found]
    exact ⟨place, s.data, rfl, tied, found⟩
  | none =>
    dsimp only
    rw [bind_of_ok _ (findProtocol_calm calm familyStr 0 s.children)]
    cases search : s.children.findIdx? (isProtocol familyStr) with
    | some place =>
      rw [Option.map_some, Nat.zero_add]
      exact ⟨place, _, rfl, tied.set known search, search⟩
    | none =>
      have created := errNomem_some (xmlNewNode_calm calm "protocol")
      have filled := @within_last_prop Protocols
        { s with
          children := s.children ++ [Node.element "protocol" [] []]
          data := s.data.set s.children.length family }
        calm s.children _ _ _ rfl "family" familyStr
      rw [Option.map_none]
      dsimp only
      rw [bind_of_ok _ created, bind_of_ok _ (modify_run _ _)]
      have found := findIdx_new search []
      exact ⟨s.children.length, _, bind_of_ok _ filled, (tied.grown _).set known found, found⟩

variable (inetNtop) in
theorem ip_appended {s : Filling Unit} (calm : s.faults = []) (addr : RtnlAddr) :
    (do
      let ipNode ← errNomem (xmlNewNode "ip")
      within ipNode do
        errNomem (xmlSetProp "address" (inetNtop addr.family addr.binary))
        errNomem (xmlSetProp "prefix" (toString addr.prefixlen)) : Fill Unit Unit) s =
      .ok () { s with children := s.children ++ [ipElement inetNtop addr] } := by
  have filled : ∀ inner : Filling Unit, inner.faults = [] → inner.attributes = [] →
      (do
        errNomem (xmlSetProp "address" (inetNtop addr.family addr.binary))
        errNomem (xmlSetProp "prefix" (toString addr.prefixlen)) : Fill Unit Unit) inner =
        .ok () { inner with
          attributes := [("address", inetNtop addr.family addr.binary), ("prefix", toString addr.prefixlen)] } := by
    intro inner quiet bare
    have second := errNomem_some (@xmlSetProp_calm Unit
      { inner with attributes := setProp "address" (inetNtop addr.family addr.binary) inner.attributes } quiet
      "prefix" (toString addr.prefixlen))
    rw [bind_of_ok _ (errNomem_some (xmlSetProp_calm quiet _ _)), second, bare]
    rfl
  rw [bind_of_ok _ (errNomem_some (xmlNewNode_calm calm "ip"))]
  exact @within_last Unit Unit { s with children := s.children ++ [Node.element "ip" [] []] } s.children "ip" [] [] rfl
    _ _ _ (filled _ calm rfl)

theorem set_modify {children : List Node} {place : Nat} {name : String} {attributes : List (String × String)}
    {inner : List Node} (there : children[place]? = some (.element name attributes inner)) (nodes : List Node) :
    children.set place (.element name attributes (inner ++ nodes)) = children.modify place (Node.append nodes) := by
  induction children generalizing place with
  | nil => cases there
  | cons child rest ih =>
    cases place with
    | zero =>
      cases there
      rfl
    | succ place =>
      rw [List.set_cons_succ, List.modify_succ_cons, ih there]

variable (inetNtop) in
-- One call: the callback's pointers come to the same as a search every time.
theorem addIpInfoCb_calm {s : Filling Protocols} (calm : s.faults = []) (tied : Tied s.data s.children)
    (addr : RtnlAddr) :
    ∃ data, Tied data (insertAddress inetNtop s.children addr) ∧
      addIpInfoCb inetNtop addr s =
        .ok () { s with children := insertAddress inetNtop s.children addr, data := data } := by
  unfold addIpInfoCb insertAddress
  cases known : addr.family.str with
  | none => exact ⟨s.data, tied, untilError_ok rfl ()⟩
  | some familyStr =>
    obtain ⟨place, data, run, still, found⟩ := protocolNode_calm calm tied known
    obtain ⟨name, attributes, inner, there⟩ := node_at found
    have quiet : Filling.faults (Filling.enter { s with
      children := withProtocol familyStr s.children, data := data } attributes inner) = [] := calm
    have appended := within_ok there (ip_appended inetNtop quiet addr)
    dsimp only
    rw [insertIp_eq found]
    refine ⟨data, still.modify place _, untilError_ok ?_ ()⟩
    rw [bind_of_ok _ run, ← set_modify there]
    exact appended

end Callback

section Run

variable {δ : Type} (inetNtop : Family → List UInt8 → String)

theorem forM_addIpInfoCb {s : Filling Protocols} (calm : s.faults = []) (tied : Tied s.data s.children)
    (addrs : List RtnlAddr) :
    ∃ data, addrs.forM (addIpInfoCb inetNtop) s =
      .ok () { s with children := addrs.foldl (insertAddress inetNtop) s.children, data := data } := by
  induction addrs generalizing s with
  | nil => exact ⟨s.data, rfl⟩
  | cons addr rest ih =>
    obtain ⟨data, still, run⟩ := addIpInfoCb_calm inetNtop calm tied addr
    obtain ⟨last, runs⟩ := @ih { s with children := insertAddress inetNtop s.children addr, data := data } calm still
    exact ⟨last, (bind_of_ok _ run).trans runs⟩

theorem addIpInfo_calm {s : Filling δ} (calm : s.faults = []) (addrCache : List RtnlAddr) (ifindex : Nat) :
    addIpInfo inetNtop addrCache ifindex s =
      .ok () { s with
        children := (addrCache.filter (·.ifindex = ifindex)).foldl (insertAddress inetNtop) s.children } := by
  have unset : Tied ⟨none, none⟩ s.children := by
    intro family familyStr place known pointer
    cases family <;> cases pointer
  obtain ⟨data, run⟩ := @forM_addIpInfoCb inetNtop
    ⟨s.faults, s.errcode, s.errdetails, s.attributes, s.children, ⟨none, none⟩⟩ calm unset
    (addrCache.filter (·.ifindex = ifindex))
  refine untilError_ok ?_ ()
  rw [bind_of_ok _ (allocFails_calm calm), if_neg Bool.false_ne_true]
  exact foreach_ok run

end Run

section Sorted

variable (inetNtop : Family → List UInt8 → String)

def ipsOf (addrs : List RtnlAddr) (familyStr : String) : List Node :=
  (addrs.filter (·.family.str = some familyStr)).map (ipElement inetNtop)

def ownIps (addrs : List RtnlAddr) : Node → List Node
  | .element name attributes _ =>
    if name = "protocol" then ((getProp attributes "family").map (ipsOf inetNtop addrs)).getD [] else []
  | .other _ => []

-- A protocol element gets the addresses of its family, every other node stays as it is.
def grow (addrs : List RtnlAddr) (node : Node) : Node :=
  node.append (ownIps inetNtop addrs node)

def touch (familyStr : String) (ip node : Node) : Node :=
  if isProtocol familyStr node then node.append [ip] else node

theorem append_nil (node : Node) : node.append [] = node := by
  cases node with
  | other => rfl
  | element => rw [Node.append, List.append_nil]

theorem append_append (node : Node) (first second : List Node) :
    (node.append first).append second = node.append (first ++ second) := by
  cases node with
  | other => rfl
  | element => rw [Node.append, Node.append, Node.append, List.append_assoc]

theorem isProtocol_touch (familyStr other : String) (ip node : Node) :
    isProtocol other (touch familyStr ip node) = isProtocol other node := by
  unfold touch
  split_ifs
  · exact isProtocol_append other [ip] node
  · rfl

variable {inetNtop}

theorem ownIps_protocol {familyStr : String} {node : Node} (own : isProtocol familyStr node = true)
    (addrs : List RtnlAddr) : ownIps inetNtop addrs node = ipsOf inetNtop addrs familyStr := by
  cases node with
  | other => cases own
  | element name attributes children =>
    simp only [isProtocol, Bool.and_eq_true, decide_eq_true_eq] at own
    rw [ownIps, if_pos own.1, own.2]
    rfl

theorem ownIps_none {node : Node} (none_own : ∀ familyStr, isProtocol familyStr node = false)
    (addrs : List RtnlAddr) : ownIps inetNtop addrs node = [] := by
  cases node with
  | other => rfl
  | element name attributes children =>
    rw [ownIps]
    split_ifs with named
    · cases family : getProp attributes "family" with
      | none => rfl
      | some familyStr =>
        have own := none_own familyStr
        simp [isProtocol, named, family] at own
    · rfl

theorem ownIps_append (addrs : List RtnlAddr) (nodes : List Node) (node : Node) :
    ownIps inetNtop addrs (node.append nodes) = ownIps inetNtop addrs node := by
  cases node <;> rfl

theorem ipsOf_cons_own {addr : RtnlAddr} {familyStr : String} (own : addr.family.str = some familyStr)
    (rest : List RtnlAddr) :
    ipsOf inetNtop (addr :: rest) familyStr = ipElement inetNtop addr :: ipsOf inetNtop rest familyStr := by
  rw [ipsOf, List.filter_cons_of_pos (by simpa using own), List.map_cons]
  rfl

theorem ipsOf_cons_other {addr : RtnlAddr} {familyStr : String} (other : addr.family.str ≠ some familyStr)
    (rest : List RtnlAddr) : ipsOf inetNtop (addr :: rest) familyStr = ipsOf inetNtop rest familyStr := by
  rw [ipsOf, List.filter_cons_of_neg (by simpa using other)]
  rfl

theorem grow_cons_own {addr : RtnlAddr} {familyStr : String} (own : addr.family.str = some familyStr)
    (rest : List RtnlAddr) (node : Node) :
    grow inetNtop (addr :: rest) node = grow inetNtop rest (touch familyStr (ipElement inetNtop addr) node) := by
  unfold grow touch
  cases here : isProtocol familyStr node with
  | true =>
    rw [if_pos rfl, ownIps_append, append_append, ownIps_protocol here, ownIps_protocol here, ipsOf_cons_own own]
    rfl
  | false =>
    rw [if_neg Bool.false_ne_true]
    by_cases some_own : ∃ other, isProtocol other node = true
    · obtain ⟨other, there⟩ := some_own
      have apart : addr.family.str ≠ some other := by
        rw [own]
        intro same
        cases same
        rw [here] at there
        cases there
      rw [ownIps_protocol there, ownIps_protocol there, ipsOf_cons_other apart]
    · have none_own : ∀ other, isProtocol other node = false := by simpa using some_own
      rw [ownIps_none none_own, ownIps_none none_own]

theorem grow_cons_other {addr : RtnlAddr} (other : addr.family.str = none) (rest : List RtnlAddr) (node : Node) :
    grow inetNtop (addr :: rest) node = grow inetNtop rest node := by
  have same : ipsOf inetNtop (addr :: rest) = ipsOf inetNtop rest :=
    funext fun familyStr => ipsOf_cons_other (by simp [other]) rest
  unfold grow
  cases node with
  | other => rfl
  | element => rw [ownIps, ownIps, same]

theorem grow_protocol (familyStr : String) (addrs : List RtnlAddr) (ips : List Node) :
    grow inetNtop addrs (protocol familyStr ips) = protocol familyStr (ips ++ ipsOf inetNtop addrs familyStr) := by
  have own : isProtocol familyStr (protocol familyStr ips) = true := by
    rw [isProtocol_protocol]
    exact decide_eq_true rfl
  unfold grow
  rw [ownIps_protocol own]
  rfl

theorem touch_single {familyStr : String} {children : List Node} {place : Nat}
    (single : children.countP (isProtocol familyStr) ≤ 1)
    (found : children.findIdx? (isProtocol familyStr) = some place) (ip : Node) :
    children.modify place (Node.append [ip]) = children.map (touch familyStr ip) := by
  induction children generalizing place with
  | nil => cases found
  | cons child rest ih =>
    rw [List.findIdx?_cons] at found
    cases here : isProtocol familyStr child with
    | true =>
      rw [here, if_pos rfl] at found
      cases found
      rw [List.countP_cons_of_pos here] at single
      have none_behind : ∀ node ∈ rest, ¬isProtocol familyStr node = true :=
        List.countP_eq_zero.mp (by omega)
      have same : rest.map (touch familyStr ip) = rest := by
        refine (List.map_congr_left fun node member => ?_).trans (List.map_id rest)
        exact if_neg (none_behind node member)
      rw [List.modify_zero_cons, List.map_cons, same, touch, here, if_pos rfl]
    | false =>
      rw [here, if_neg Bool.false_ne_true] at found
      obtain ⟨before, later, rfl⟩ := Option.map_eq_some_iff.mp found
      rw [List.countP_cons_of_neg (by simp [here])] at single
      rw [List.modify_succ_cons, ih single later, List.map_cons, touch, here, if_neg Bool.false_ne_true]

-- At most one protocol element for each family of addresses.
def Single (children : List Node) : Prop :=
  ∀ family familyStr, Family.str family = some familyStr → children.countP (isProtocol familyStr) ≤ 1

theorem countP_touch (familyStr other : String) (ip : Node) (children : List Node) :
    (children.map (touch familyStr ip)).countP (isProtocol other) = children.countP (isProtocol other) := by
  rw [List.countP_map]
  exact List.countP_congr fun node _ => by rw [Function.comp_apply, isProtocol_touch]

theorem Single.touch {children : List Node} (single : Single children) (familyStr : String) (ip : Node) :
    Single (children.map (touch familyStr ip)) := by
  intro family other known
  rw [countP_touch]
  exact single family other known

theorem Single.new {children : List Node} (single : Single children) {familyStr : String}
    (absent : ∀ child ∈ children, isProtocol familyStr child = false) (ips : List Node) :
    Single (children ++ [protocol familyStr ips]) := by
  intro family other known
  rw [List.countP_append, List.countP_singleton, isProtocol_protocol]
  by_cases same : familyStr = other
  · have none_there : children.countP (isProtocol other) = 0 :=
      List.countP_eq_zero.mpr fun child member => by simp [← same, absent child member]
    rw [none_there]
    split_ifs <;> omega
  · rw [decide_eq_false same, if_neg Bool.false_ne_true]
    exact single family other known

-- The families that get an element of their own.
def Created (addrs : List RtnlAddr) (children : List Node) (created : List String) : Prop :=
  created.Nodup ∧ ∀ familyStr, familyStr ∈ created ↔
    (∃ addr ∈ addrs, addr.family.str = some familyStr) ∧ ∀ child ∈ children, isProtocol familyStr child = false

variable (inetNtop) in
-- Every element that is there gets its addresses, and behind them come the new ones with theirs.
def Distributed (addrs : List RtnlAddr) (children : List Node) : Prop :=
  ∃ created, Created addrs children created ∧
    addrs.foldl (insertAddress inetNtop) children = children.map (grow inetNtop addrs) ++
      created.map fun familyStr => protocol familyStr (ipsOf inetNtop addrs familyStr)

theorem distributed_nil (children : List Node) : Distributed inetNtop [] children := by
  refine ⟨[], ⟨List.nodup_nil, by simp⟩, ?_⟩
  have same : children.map (grow inetNtop []) = children := by
    refine (List.map_congr_left fun node _ => ?_).trans (List.map_id children)
    by_cases some_own : ∃ familyStr, isProtocol familyStr node = true
    · obtain ⟨familyStr, own⟩ := some_own
      rw [grow, ownIps_protocol own]
      exact append_nil node
    · rw [grow, ownIps_none (by simpa using some_own)]
      exact append_nil node
  rw [same]
  exact (List.append_nil children).symm

section Steps

variable {addr : RtnlAddr} {rest : List RtnlAddr} {children : List Node} {familyStr : String}

theorem distributed_unknown (known : addr.family.str = none) (later : Distributed inetNtop rest children) :
    Distributed inetNtop (addr :: rest) children := by
  obtain ⟨created, ⟨distinct, which⟩, run⟩ := later
  refine ⟨created, ⟨distinct, fun familyStr => ?_⟩, ?_⟩
  · simp [which, known]
  · rw [List.foldl_cons, insertAddress, known]
    dsimp only
    rw [run]
    congr 1
    · exact List.map_congr_left fun node _ => (grow_cons_other known rest node).symm
    · exact List.map_congr_left fun familyStr _ => by rw [ipsOf_cons_other (by simp [known])]

theorem insertAddress_known (known : addr.family.str = some familyStr) :
    insertAddress inetNtop children addr = insertIp familyStr (ipElement inetNtop addr) children := by
  rw [insertAddress, known]

-- The family has its element: the address goes into it.
theorem distributed_present {place : Nat} (single : Single children) (known : addr.family.str = some familyStr)
    (search : children.findIdx? (isProtocol familyStr) = some place)
    (later : Distributed inetNtop rest (children.map (touch familyStr (ipElement inetNtop addr)))) :
    Distributed inetNtop (addr :: rest) children := by
  obtain ⟨created, ⟨distinct, which⟩, run⟩ := later
  obtain ⟨bound, present, _⟩ := List.findIdx?_eq_some_iff_getElem.mp search
  have taken : ∀ other ∈ created, addr.family.str ≠ some other := by
    intro other member same
    cases known.symm.trans same
    have absent := ((which familyStr).mp member).2 _ (List.mem_map_of_mem (List.getElem_mem bound))
    rw [isProtocol_touch, present] at absent
    cases absent
  refine ⟨created, ⟨distinct, fun other => ?_⟩, ?_⟩
  · rw [which]
    simp only [List.forall_mem_map, isProtocol_touch, List.exists_mem_cons_iff]
    refine and_congr_left fun absent => (or_iff_right fun same => ?_).symm
    cases known.symm.trans same
    rw [absent _ (List.getElem_mem bound)] at present
    cases present
  · rw [List.foldl_cons, insertAddress_known known, insertIp, search]
    dsimp only
    rw [touch_single (single addr.family familyStr known) search, run, List.map_map]
    congr 1
    · exact List.map_congr_left fun node _ => (grow_cons_own known rest node).symm
    · exact List.map_congr_left fun other member => by rw [ipsOf_cons_other (taken other member)]

-- The first address of its family creates the element.
theorem distributed_absent (known : addr.family.str = some familyStr)
    (search : children.findIdx? (isProtocol familyStr) = none)
    (later : Distributed inetNtop rest (children ++ [protocol familyStr [ipElement inetNtop addr]])) :
    Distributed inetNtop (addr :: rest) children := by
  have absent : ∀ child ∈ children, isProtocol familyStr child = false := List.findIdx?_eq_none_iff.mp search
  obtain ⟨created, ⟨distinct, which⟩, run⟩ := later
  have new : familyStr ∉ created := by
    intro member
    have there := ((which familyStr).mp member).2 (protocol familyStr [ipElement inetNtop addr])
      (List.mem_append_right _ List.mem_cons_self)
    simp [isProtocol_protocol] at there
  refine ⟨familyStr :: created, ⟨List.nodup_cons.mpr ⟨new, distinct⟩, fun other => ?_⟩, ?_⟩
  · rw [List.mem_cons, which]
    by_cases same : other = familyStr
    · subst same
      exact iff_of_true (Or.inl rfl) ⟨⟨addr, List.mem_cons_self, known⟩, absent⟩
    · have apart : addr.family.str ≠ some other := by
        rw [known]
        exact fun equal => same (Option.some.inj equal).symm
      have unlike : isProtocol other (protocol familyStr [ipElement inetNtop addr]) = false := by
        rw [isProtocol_protocol]
        exact decide_eq_false (Ne.symm same)
      simp only [List.forall_mem_append, List.forall_mem_singleton, unlike, same, false_or, and_true,
        List.exists_mem_cons_iff, apart]
  · rw [List.foldl_cons, insertAddress_known known, insertIp, search]
    dsimp only
    rw [run, List.map_append, List.map_singleton, grow_protocol, List.append_assoc, List.map_cons,
      ipsOf_cons_own known]
    congr 1
    · refine List.map_congr_left fun node member => ?_
      rw [grow_cons_own known, touch, absent node member, if_neg Bool.false_ne_true]
    · refine congrArg (List.cons _) (List.map_congr_left fun other member => ?_)
      rw [ipsOf_cons_other]
      rw [known]
      intro same
      cases same
      exact new member

end Steps

theorem foldl_insertAddress (addrs : List RtnlAddr) {children : List Node} (single : Single children) :
    Distributed inetNtop addrs children := by
  induction addrs generalizing children with
  | nil => exact distributed_nil children
  | cons addr rest ih =>
    cases known : addr.family.str with
    | none => exact distributed_unknown known (ih single)
    | some familyStr =>
      cases search : children.findIdx? (isProtocol familyStr) with
      | some place =>
        exact distributed_present single known search (ih (single.touch familyStr (ipElement inetNtop addr)))
      | none =>
        have absent := List.findIdx?_eq_none_iff.mp search
        exact distributed_absent known search (ih (single.new absent [ipElement inetNtop addr]))

end Sorted

section Outcome

variable {δ : Type} (inetNtop : Family → List UInt8 → String)

theorem isProtocol_grow (familyStr : String) (addrs : List RtnlAddr) (node : Node) :
    isProtocol familyStr (grow inetNtop addrs node) = isProtocol familyStr node :=
  isProtocol_append familyStr _ node

theorem single_created {addrs : List RtnlAddr} {children : List Node} (single : Single children)
    {created : List String} (new : Created addrs children created) :
    Single (children.map (grow inetNtop addrs) ++
      created.map fun familyStr => protocol familyStr (ipsOf inetNtop addrs familyStr)) := by
  intro family familyStr known
  have old : (children.map (grow inetNtop addrs)).countP (isProtocol familyStr) =
      children.countP (isProtocol familyStr) := by
    rw [List.countP_map]
    exact List.countP_congr fun node _ => by rw [Function.comp_apply, isProtocol_grow]
  have own : (created.map fun other => protocol other (ipsOf inetNtop addrs other)).countP (isProtocol familyStr) =
      created.count familyStr := by
    rw [List.countP_map, List.count]
    exact List.countP_congr fun other _ => by simp [isProtocol_protocol]
  have once := List.nodup_iff_count_le_one.mp new.1 familyStr
  rw [List.countP_append, old, own]
  by_cases member : familyStr ∈ created
  · have absent : children.countP (isProtocol familyStr) = 0 :=
      List.countP_eq_zero.mpr fun child there => by simp [((new.2 familyStr).mp member).2 child there]
    omega
  · rw [List.count_eq_zero.mpr member]
    exact single family familyStr known

-- Every protocol element keeps what it has and gets the addresses of its family behind it, in the order of the
-- records. A family of the records without an element gets a new one, and nothing else changes.
theorem addresses_once {s : Filling δ} (calm : s.faults = []) (single : Single s.children)
    (addrCache : List RtnlAddr) (ifindex : Nat) :
    ∃ created, Created (addrCache.filter (·.ifindex = ifindex)) s.children created ∧
      ∃ children, addIpInfo inetNtop addrCache ifindex s = .ok () { s with children := children } ∧
        Single children ∧
        children = s.children.map (grow inetNtop (addrCache.filter (·.ifindex = ifindex))) ++
          created.map fun familyStr =>
            protocol familyStr (ipsOf inetNtop (addrCache.filter (·.ifindex = ifindex)) familyStr) := by
  obtain ⟨created, new, run⟩ := @foldl_insertAddress inetNtop (addrCache.filter (·.ifindex = ifindex)) s.children single
  refine ⟨created, new, _, addIpInfo_calm inetNtop calm addrCache ifindex, ?_, run⟩
  rw [run]
  exact single_created inetNtop single new

-- An interface with an address of each family, and an IPv4 protocol that has been there before.
def dualStack : Filling Unit where
  faults := []
  errcode := none
  errdetails := none
  attributes := [("name", "eth0")]
  children := [.other "\n", .element "protocol" [("family", "ipv4")] [.element "dhcp" [] []]]
  data := ()

def dualAddrs : List RtnlAddr :=
  [⟨2, .inet6, [], 64⟩, ⟨2, .other 17, [], 0⟩, ⟨3, .inet, [], 8⟩, ⟨2, .inet, [], 24⟩, ⟨2, .inet6, [], 10⟩]

theorem addresses_once_dualStack :
    ∃ created, Created (dualAddrs.filter (·.ifindex = 2)) dualStack.children created ∧
      ∃ children, addIpInfo (fun _ _ => "::") dualAddrs 2 dualStack = .ok () { dualStack with children := children } ∧
        Single children ∧
        children = dualStack.children.map (grow (fun _ _ => "::") (dualAddrs.filter (·.ifindex = 2))) ++
          created.map fun familyStr =>
            protocol familyStr (ipsOf (fun _ _ => "::") (dualAddrs.filter (·.ifindex = 2)) familyStr) := by
  refine addresses_once (fun _ _ => "::") rfl ?_ dualAddrs 2
  intro family familyStr known
  cases family with
  | inet | inet6 =>
    cases known
    decide
  | other => cases known

end Outcome

end Netcf.Linux.Live
