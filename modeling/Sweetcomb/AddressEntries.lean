import Mathlib.Data.List.TakeWhile
import Sweetcomb.AddressChangeSet
import Sweetcomb.AddressRequests

/-!
# Entries of the address lists

A change set is about entries of any interfaces, one after the other. An entry is created
or deleted with all its leaves, or only its subnet is changed; the key leaf `ip` is then not
reported. What the loop asks for follows entry by entry from four of its variables.
-/

namespace Sweetcomb

/-- The leaf of the choice `subnet`; a netmask comes with the octets its text stands for. -/
inductive Subnet
  | prefixLength (n : UInt8)
  | netmask (text : String) (a b c d : UInt8)
deriving DecidableEq, Repr

namespace Subnet

def Reads (A : Asio) : Subnet → Prop
  | prefixLength _ => True
  | netmask text a b c d => A.fromString text = some (.v4 a b c d)

/-- The leaf below a list entry. -/
def value (entry : XPath) : Subnet → SrVal
  | prefixLength n => ⟨entry ++ [⟨"prefix-length", []⟩], .uint8 n⟩
  | netmask text .. => ⟨entry ++ [⟨"netmask", []⟩], .string text⟩

/-- The prefix length the callback makes of the leaf. -/
def plen : Subnet → UInt8
  | prefixLength n => n
  | netmask _ a b c d =>
    .ofNat (shiftCount (a.toNat + 256 * (b.toNat + 256 * (c.toNat + 256 * d.toNat))))

end Subnet

/-- What happens to an entry; a choice that switches its leaf deletes one and creates the
other, in either order. -/
inductive EntryOp
  | created (s : Subnet)
  | deleted (s : Subnet)
  | modified (old new : Subnet)
  | switched (old new : Subnet) (deletedFirst : Bool)
deriving DecidableEq, Repr

def EntryOp.Reads (A : Asio) : EntryOp → Prop
  | created s => s.Reads A
  | deleted s => s.Reads A
  | modified old new => old.Reads A ∧ new.Reads A
  | switched old new _ => old.Reads A ∧ new.Reads A

/-- An entry of the address list of an interface, and what happens to it. -/
structure AddrChange where
  itf : String
  family : IpFamily
  text : String
  address : Address
  op : EntryOp
deriving DecidableEq, Repr

namespace AddrChange

def path (e : AddrChange) : XPath := addressPath e.itf e.family e.text

def ipValue (e : AddrChange) : SrVal := ⟨e.path ++ [⟨"ip", []⟩], .string e.text⟩

/-- The changes that are reported of an entry. -/
def changes (e : AddrChange) : List Change :=
  match e.op with
  | .created s => [.created ⟨e.path, .list⟩, .created e.ipValue, .created (s.value e.path)]
  | .deleted s => [.deleted ⟨e.path, .list⟩, .deleted e.ipValue, .deleted (s.value e.path)]
  | .modified old new => [.modified (old.value e.path) (new.value e.path)]
  | .switched old new true => [.deleted (old.value e.path), .created (new.value e.path)]
  | .switched old new false => [.created (new.value e.path), .deleted (old.value e.path)]

def reported (es : List AddrChange) : List Change := es.flatMap changes

/-- The texts of an entry stand for addresses. -/
def Reads (A : Asio) (e : AddrChange) : Prop :=
  A.fromString e.text = some e.address ∧ e.op.Reads A

/-- The variables once the entry is behind. -/
def localsAfter (l : AddrLocals) (e : AddrChange) : AddrLocals :=
  match e.op with
  | .created s => { l with create := true, newAddr := e.text, newPrefix := s.plen }
  | .deleted s => { l with del := true, oldAddr := e.text, oldPrefix := s.plen }
  | .modified old new | .switched old new _ =>
    { l with create := true, del := true, oldPrefix := old.plen, newPrefix := new.plen }

/-- What is asked for while an entry is gone through: after each of its changes. -/
def requests (l : AddrLocals) (e : AddrChange) : List AddrRequest :=
  match e.op with
  | .created s =>
    let l := { l with create := true, newAddr := "" }
    let l' := { l with newAddr := e.text }
    l.requests e.itf ++ l'.requests e.itf ++ { l' with newPrefix := s.plen }.requests e.itf
  | .deleted s =>
    let l := { l with del := true, oldAddr := "" }
    let l' := { l with oldAddr := e.text }
    l.requests e.itf ++ l'.requests e.itf ++ { l' with oldPrefix := s.plen }.requests e.itf
  | .modified _ _ => (localsAfter l e).requests e.itf
  | .switched old _ true =>
    { l with del := true, oldPrefix := old.plen }.requests e.itf ++
      (localsAfter l e).requests e.itf
  | .switched _ new false =>
    { l with create := true, newPrefix := new.plen }.requests e.itf ++
      (localsAfter l e).requests e.itf

/-- What is asked for over a list of entries. -/
def allRequests : AddrLocals → List AddrChange → List AddrRequest
  | _, [] => []
  | l, e :: es => e.requests l ++ allRequests (e.localsAfter l) es

end AddrChange

/-! ## Entry by entry -/

section Pass

variable {A : Asio} {l : AddrLocals} {cs : List Change} {v old new : SrVal} {itf a b : String}
  {m n : UInt8}

theorem parse_subnet {s : Subnet} (hs : s.Reads A) (entry : XPath) (a : String) (n : UInt8) :
    parseInterfaceIpv46Address A (some (s.value entry)) a n = .ok (a, s.plen) := by
  cases s with
  | prefixLength k =>
    simp [Subnet.value, Subnet.plen, parseInterfaceIpv46Address, SrData.isList, SrData.uint8Val,
      XPath.nodeNameEq]
  | netmask text x y z u =>
    have hparse : A.fromString text = some (.v4 x y z u) := hs
    simp [Subnet.value, Subnet.plen, parseInterfaceIpv46Address, SrData.isList, SrData.stringVal,
      XPath.nodeNameEq, hparse, netmaskToPlen, Except.map]

theorem parse_ip (e : AddrChange) (a : String) (n : UInt8) :
    parseInterfaceIpv46Address A (some e.ipValue) a n = .ok (e.text, n) := by
  simp [AddrChange.ipValue, parseInterfaceIpv46Address, SrData.isList, SrData.stringVal,
    XPath.nodeNameEq]

/-- A created value is read into the new variables. -/
theorem pass_created (hitf : v.xpath.keyValue "interface" "name" = some itf) (hne : itf ≠ "")
    (hv : parseInterfaceIpv46Address A (some v) l.newAddr l.newPrefix = .ok (a, n)) :
    let l' : AddrLocals := { l with create := true, newAddr := a, newPrefix := n }
    l.pass A (.created v :: cs) = (l'.requests itf ++ (l'.pass A cs).1, (l'.pass A cs).2) := by
  simp [AddrLocals.pass, AddrLocals.parse, AddrLocals.parseNew, AddrLocals.catchThrows,
    Change.xpath, hitf, hne, hv, Except.map]

/-- A deleted value is read into the old variables. -/
theorem pass_deleted (hitf : v.xpath.keyValue "interface" "name" = some itf) (hne : itf ≠ "")
    (hv : parseInterfaceIpv46Address A (some v) l.oldAddr l.oldPrefix = .ok (a, n)) :
    let l' : AddrLocals := { l with del := true, oldAddr := a, oldPrefix := n }
    l.pass A (.deleted v :: cs) = (l'.requests itf ++ (l'.pass A cs).1, (l'.pass A cs).2) := by
  simp [AddrLocals.pass, AddrLocals.parse, AddrLocals.parseOld, AddrLocals.catchThrows,
    Change.xpath, hitf, hne, hv, Except.map]

theorem pass_modified (hitf : new.xpath.keyValue "interface" "name" = some itf) (hne : itf ≠ "")
    (hold : parseInterfaceIpv46Address A (some old) l.oldAddr l.oldPrefix = .ok (a, m))
    (hnew : parseInterfaceIpv46Address A (some new) l.newAddr l.newPrefix = .ok (b, n)) :
    let l' : AddrLocals := { l with
      create := true, del := true, oldAddr := a, oldPrefix := m, newAddr := b, newPrefix := n }
    l.pass A (.modified old new :: cs) =
      (l'.requests itf ++ (l'.pass A cs).1, (l'.pass A cs).2) := by
  simp [AddrLocals.pass, AddrLocals.parse, AddrLocals.parseOld, AddrLocals.parseNew,
    AddrLocals.catchThrows, Change.xpath, hitf, hne, hold, hnew, Except.map]

theorem keyValue_subnet (e : AddrChange) (s : Subnet) :
    (s.value e.path).xpath.keyValue "interface" "name" = some e.itf := by
  cases s <;> rfl

/-- What an entry asks for, and the variables it leaves to the next one. -/
theorem pass_entry {e : AddrChange} (hne : e.itf ≠ "") (he : e.Reads A) (cs : List Change) :
    l.pass A (e.changes ++ cs) =
      (e.requests l ++ ((e.localsAfter l).pass A cs).1, ((e.localsAfter l).pass A cs).2) := by
  obtain ⟨-, hop⟩ := he
  unfold AddrChange.changes AddrChange.requests AddrChange.localsAfter
  cases hcase : e.op with
  | created s =>
    rw [hcase] at hop
    simp only [List.cons_append, List.nil_append]
    rw [pass_created rfl hne rfl]
    rw [pass_created rfl hne (parse_ip e _ _)]
    rw [pass_created (keyValue_subnet e s) hne (parse_subnet hop _ _ _)]
    simp
  | deleted s =>
    rw [hcase] at hop
    simp only [List.cons_append, List.nil_append]
    rw [pass_deleted rfl hne rfl]
    rw [pass_deleted rfl hne (parse_ip e _ _)]
    rw [pass_deleted (keyValue_subnet e s) hne (parse_subnet hop _ _ _)]
    simp
  | modified old new =>
    rw [hcase] at hop
    simp only [List.cons_append, List.nil_append]
    rw [pass_modified (keyValue_subnet e new) hne (parse_subnet hop.1 _ _ _)
      (parse_subnet hop.2 _ _ _)]
  | switched old new first =>
    rw [hcase] at hop
    cases first with
    | true =>
      simp only [List.cons_append, List.nil_append]
      rw [pass_deleted (keyValue_subnet e old) hne (parse_subnet hop.1 _ _ _)]
      rw [pass_created (keyValue_subnet e new) hne (parse_subnet hop.2 _ _ _)]
      simp
    | false =>
      simp only [List.cons_append, List.nil_append]
      rw [pass_created (keyValue_subnet e new) hne (parse_subnet hop.2 _ _ _)]
      rw [pass_deleted (keyValue_subnet e old) hne (parse_subnet hop.1 _ _ _)]
      simp

/-- Nothing of an entry without an interface name is looked at. -/
theorem pass_nameless {e : AddrChange} (he : e.itf = "") (cs : List Change) :
    l.pass A (e.changes ++ cs) = ([], some (.returns .operationFailed)) := by
  have hleft : ∀ c cs', c.xpath.keyValue "interface" "name" = some "" →
      l.pass A (c :: cs') = ([], some (.returns .operationFailed)) := by
    intro c cs' hc
    simp [AddrLocals.pass, hc]
  have hkey : ∀ below, XPath.keyValue (e.path ++ below) "interface" "name" = some "" := by
    intro below
    rw [← he]
    rfl
  unfold AddrChange.changes
  cases e.op with
  | created s => exact hleft _ _ (by simpa [Change.xpath] using hkey [])
  | deleted s => exact hleft _ _ (by simpa [Change.xpath] using hkey [])
  | modified old new => exact hleft _ _ (he ▸ keyValue_subnet e new)
  | switched old new first =>
    cases first with
    | true => exact hleft _ _ (he ▸ keyValue_subnet e old)
    | false => exact hleft _ _ (he ▸ keyValue_subnet e new)

/-- The entries before the first one whose interface has no name. -/
def AddrChange.named (es : List AddrChange) : List AddrChange := es.takeWhile (·.itf ≠ "")

theorem AddrChange.named_eq_self {es : List AddrChange} (hne : ∀ e ∈ es, e.itf ≠ "") :
    AddrChange.named es = es :=
  List.takeWhile_eq_self_iff.mpr fun e he => by simpa using hne e he

/-- The loop goes through its entries one by one, until one has no interface name. -/
theorem pass_reported_named {es : List AddrChange} (hes : ∀ e ∈ es, e.Reads A) :
    l.pass A (AddrChange.reported es) = (AddrChange.allRequests l (AddrChange.named es),
      if ∀ e ∈ es, e.itf ≠ "" then none else some (.returns .operationFailed)) := by
  induction es generalizing l with
  | nil => rfl
  | cons e es ih =>
    rw [List.forall_mem_cons] at hes
    show l.pass A (e.changes ++ AddrChange.reported es) = _
    by_cases he : e.itf = ""
    · rw [pass_nameless he]
      simp [AddrChange.named, AddrChange.allRequests, he]
    · rw [pass_entry he hes.1, ih hes.2]
      simp [AddrChange.named, AddrChange.allRequests, he]

/-- The requests of a change set, entry by entry. -/
theorem pass_reported {es : List AddrChange} (hne : ∀ e ∈ es, e.itf ≠ "")
    (hes : ∀ e ∈ es, e.Reads A) :
    l.pass A (AddrChange.reported es) = (AddrChange.allRequests l es, none) := by
  rw [pass_reported_named hes, AddrChange.named_eq_self hne, if_pos hne]

end Pass

/-! ## What the variables remember -/

/-- Whether a whole entry is created or deleted, if either. -/
def EntryOp.whole : EntryOp → Option Bool
  | created _ => some true
  | deleted _ => some false
  | modified .. => none
  | switched .. => none

namespace AddrLocals

/-- The variables for added addresses, or those for deleted ones. -/
def addr (l : AddrLocals) (add : Bool) : String := if add then l.newAddr else l.oldAddr
def pfx (l : AddrLocals) (add : Bool) : UInt8 := if add then l.newPrefix else l.oldPrefix
def flag (l : AddrLocals) (add : Bool) : Bool := if add then l.create else l.del

theorem mem_requests {l : AddrLocals} {n : String} {q : AddrRequest} :
    q ∈ l.requests n ↔
      q.itf = n ∧ l.flag q.add = true ∧ q.addr = l.addr q.add ∧ q.addr ≠ "" ∧
        q.pfx = l.pfx q.add := by
  obtain ⟨itf, a, p, add⟩ := q
  cases add <;> simp [requests, flag, addr, pfx] <;> aesop

end AddrLocals

namespace AddrChange

/-- The entry created last, or the one deleted last. -/
def last (add : Bool) (es : List AddrChange) : Option AddrChange :=
  (es.filter fun e => e.op.whole = some add).getLast?

theorem last_append (add : Bool) (es : List AddrChange) (e : AddrChange) :
    last add (es ++ [e]) = if e.op.whole = some add then some e else last add es := by
  unfold last
  rw [List.filter_append]
  by_cases h : e.op.whole = some add <;> simp [h]

theorem mem_of_last {add : Bool} {es : List AddrChange} {d : AddrChange} (h : d ∈ last add es) :
    d ∈ es ∧ d.op.whole = some add := by
  simpa using List.mem_filter.mp (List.mem_of_getLast? h)

theorem last_isSome {add : Bool} {es : List AddrChange} {d : AddrChange} (hd : d ∈ es)
    (hop : d.op.whole = some add) : (last add es).isSome := by
  rw [last, List.getLast?_isSome]
  exact List.ne_nil_of_mem (List.mem_filter.mpr ⟨hd, by simpa using hop⟩)

def localsAfterAll (l : AddrLocals) (es : List AddrChange) : AddrLocals :=
  es.foldl localsAfter l

/-- The loop holds the address created last and the one deleted last. -/
structure Remembers (es : List AddrChange) (l : AddrLocals) : Prop where
  addr : ∀ add, l.addr add = (last add es).elim "" text
  flag : ∀ add, (last add es).isSome → l.flag add = true

theorem remembers_nil : Remembers [] {} where
  addr add := by cases add <;> rfl
  flag add := by simp [last]

theorem Remembers.entry {es : List AddrChange} {l : AddrLocals} (h : Remembers es l)
    (e : AddrChange) : Remembers (es ++ [e]) (e.localsAfter l) := by
  constructor
  · intro add
    have haddr := h.addr add
    rw [last_append]
    unfold localsAfter EntryOp.whole
    cases hop : e.op <;> cases add <;> simp_all [AddrLocals.addr]
  · intro add
    have hflag := h.flag add
    rw [last_append]
    unfold localsAfter EntryOp.whole
    cases hop : e.op <;> cases add <;> simp_all [AddrLocals.flag]

theorem remembers (es : List AddrChange) : Remembers es (localsAfterAll {} es) := by
  induction es using List.reverseRecOn with
  | nil => exact remembers_nil
  | append_singleton es e ih =>
    rw [localsAfterAll, List.foldl_append]
    exact ih.entry e

variable {l : AddrLocals} {e : AddrChange} {es : List AddrChange} {q : AddrRequest}

/-- The last turn over an entry asks for what the variables hold afterwards. -/
theorem suffix_requests (l : AddrLocals) (e : AddrChange) :
    (e.localsAfter l).requests e.itf <:+ e.requests l := by
  unfold requests localsAfter
  rcases e.op with s | s | ⟨old, new⟩ | ⟨old, new, _ | _⟩
  · exact List.suffix_append _ _
  · exact List.suffix_append _ _
  · exact List.suffix_rfl
  · exact List.suffix_append _ _
  · exact List.suffix_append _ _

/-- While an entry is gone through, an address is held as it is afterwards, or not at all. -/
theorem exists_of_mem_requests (h : q ∈ e.requests l) :
    ∃ l' : AddrLocals, q ∈ l'.requests e.itf ∧
      ∀ add, l'.addr add = "" ∨ l'.addr add = (e.localsAfter l).addr add := by
  unfold requests at h
  unfold localsAfter
  cases hop : e.op with
  | created s =>
    simp only [hop, List.mem_append, or_assoc] at h
    rcases h with h | h | h <;> exact ⟨_, h, by simp [AddrLocals.addr]⟩
  | deleted s =>
    simp only [hop, List.mem_append, or_assoc] at h
    rcases h with h | h | h <;> exact ⟨_, h, by simp [AddrLocals.addr]⟩
  | modified old new =>
    simp only [hop, localsAfter] at h
    exact ⟨_, h, by simp [AddrLocals.addr]⟩
  | switched old new first =>
    cases first <;> simp only [hop, localsAfter, List.mem_append] at h <;>
      rcases h with h | h <;> exact ⟨_, h, by simp [AddrLocals.addr]⟩

theorem of_mem_requests (h : q ∈ e.requests l) :
    q.itf = e.itf ∧ q.addr = (e.localsAfter l).addr q.add ∧ q.addr ≠ "" := by
  obtain ⟨l', hq, hl'⟩ := exists_of_mem_requests h
  obtain ⟨hitf, -, haddr, hne, -⟩ := AddrLocals.mem_requests.mp hq
  refine ⟨hitf, ?_, hne⟩
  rcases hl' q.add with h | h
  · exact absurd (haddr.trans h) hne
  · exact haddr.trans h

theorem mem_allRequests :
    q ∈ allRequests l es ↔
      ∃ pre e post, es = pre ++ e :: post ∧ q ∈ e.requests (localsAfterAll l pre) := by
  induction es generalizing l with
  | nil => simp [allRequests]
  | cons d es ih =>
    rw [allRequests, List.mem_append, ih]
    constructor
    · rintro (h | ⟨pre, e, post, rfl, h⟩)
      · exact ⟨[], d, es, rfl, h⟩
      · exact ⟨d :: pre, e, post, rfl, h⟩
    · rintro ⟨pre, e, post, hes, h⟩
      cases pre with
      | nil =>
        obtain ⟨rfl, rfl⟩ := List.cons.inj hes
        exact .inl h
      | cons c pre =>
        obtain ⟨rfl, rfl⟩ := List.cons.inj hes
        exact .inr ⟨pre, e, post, rfl, h⟩

/-- After an entry, the address created last and the one deleted last are asked for on the
interface of that entry, and nothing else is. -/
theorem request_iff (htext : ∀ e ∈ es, e.text ≠ "") {n t : String} {add : Bool} :
    (∃ q ∈ allRequests {} es, q.itf = n ∧ q.addr = t ∧ q.add = add) ↔
      ∃ p ∈ es.inits, ∃ e ∈ p.getLast?, e.itf = n ∧ ∃ d ∈ last add p, d.text = t := by
  simp only [mem_allRequests]
  constructor
  · rintro ⟨q, ⟨pre, e, post, rfl, hq⟩, rfl, rfl, rfl⟩
    obtain ⟨hitf, haddr, hne⟩ := of_mem_requests hq
    refine ⟨pre ++ [e], by simp, e, by simp, hitf.symm, ?_⟩
    rw [haddr, ((remembers pre).entry e).addr] at hne ⊢
    cases hlast : last q.add (pre ++ [e]) with
    | none => simp [hlast] at hne
    | some d => exact ⟨d, rfl, rfl⟩
  · rintro ⟨p, hp, e, he, rfl, d, hd, rfl⟩
    obtain ⟨pre, rfl⟩ : ∃ pre, p = pre ++ [e] :=
      ⟨p.dropLast, (List.dropLast_append_getLast? e he).symm⟩
    obtain ⟨post, rfl⟩ := (List.mem_inits _ _).mp hp
    let l := e.localsAfter (localsAfterAll {} pre)
    have hrem := (remembers pre).entry e
    have hflag : l.flag add = true := hrem.flag add (by rw [Option.mem_def.mp hd]; rfl)
    have haddr : l.addr add = d.text := by
      rw [hrem.addr add, Option.mem_def.mp hd]
      rfl
    have hne : d.text ≠ "" := htext d (List.mem_append_left _ (mem_of_last hd).1)
    have hmem : (⟨e.itf, d.text, l.pfx add, add⟩ : AddrRequest) ∈ l.requests e.itf :=
      AddrLocals.mem_requests.mpr ⟨rfl, hflag, haddr.symm, hne, rfl⟩
    exact ⟨_, ⟨pre, e, post, by simp, (suffix_requests _ _).subset hmem⟩, rfl, rfl, rfl⟩

/-- A request is about the interface of one entry and the address of a whole entry. -/
theorem of_mem_allRequests (htext : ∀ e ∈ es, e.text ≠ "") (hq : q ∈ allRequests {} es) :
    (∃ e ∈ es, q.itf = e.itf) ∧ ∃ d ∈ es, d.op.whole = some q.add ∧ q.addr = d.text := by
  obtain ⟨p, hp, e, he, hitf, d, hd, haddr⟩ := (request_iff htext).mp ⟨q, hq, rfl, rfl, rfl⟩
  have hsub := ((List.mem_inits _ _).mp hp).subset
  obtain ⟨hmem, hop⟩ := mem_of_last hd
  exact ⟨⟨e, hsub (List.mem_of_getLast? he), hitf.symm⟩, d, hsub hmem, hop, haddr.symm⟩

theorem allRequests_append (l : AddrLocals) (es es' : List AddrChange) :
    allRequests l (es ++ es') = allRequests l es ++ allRequests (localsAfterAll l es) es' := by
  induction es generalizing l with
  | nil => rfl
  | cons e es ih =>
    rw [List.cons_append, allRequests, allRequests, ih, List.append_assoc]
    rfl

/-- Once an address is created, the loop ends with asking for it. -/
theorem allRequests_ends (htext : ∀ e ∈ es, e.text ≠ "")
    (hnew : ∃ d ∈ es, d.op.whole = some true) :
    ∃ rs q, allRequests {} es = rs ++ [q] ∧ q.add = true := by
  obtain ⟨d, hd, hop⟩ := hnew
  -- the last entry, after which the variables hold the address created last
  obtain ⟨pre, e, rfl⟩ : ∃ pre e, es = pre ++ [e] :=
    ⟨_, _, (List.dropLast_concat_getLast (List.ne_nil_of_mem hd)).symm⟩
  obtain ⟨c, hc⟩ := Option.isSome_iff_exists.mp (last_isSome hd hop)
  obtain ⟨hcmem, -⟩ := mem_of_last hc
  have hrem := (remembers pre).entry e
  let l := e.localsAfter (localsAfterAll {} pre)
  have haddr : l.newAddr = c.text := (hrem.addr true).trans (by rw [hc]; rfl)
  have hcreate : l.create = true := hrem.flag true (by rw [hc]; rfl)
  obtain ⟨rs, hrs⟩ := suffix_requests (localsAfterAll {} pre) e
  let removals : List AddrRequest :=
    if l.del && !l.oldAddr.isEmpty then [⟨e.itf, l.oldAddr, l.oldPrefix, false⟩] else []
  refine ⟨allRequests {} pre ++ rs ++ removals, ⟨e.itf, l.newAddr, l.newPrefix, true⟩, ?_, rfl⟩
  rw [allRequests_append, allRequests, allRequests, ← hrs, AddrLocals.requests]
  simp [removals, l, hcreate, haddr, htext c hcmem]

theorem named_subset : named es ⊆ es := (List.takeWhile_prefix _).subset

/-- The binding of a request is that of an entry's address on the interface of another. -/
theorem binding_of_text {A : Asio} {d : AddrChange} (hd : d.Reads A) {q : AddrRequest}
    (haddr : q.addr = d.text) : q.binding A = some (q.itf, ⟨d.address, q.pfx⟩) := by
  rw [AddrRequest.binding_eq_some, haddr]
  exact ⟨rfl, rfl, hd.1⟩

theorem text_ne_empty (hA : A.Lawful) (hes : ∀ e ∈ es, e.Reads A) :
    ∀ e ∈ es, e.text ≠ "" := by
  intro e he h
  have hparse := (hes e he).1
  rw [h, hA.empty_malformed] at hparse
  cases hparse

end AddrChange

/-- What VOM and sysrepo see of a change set of entries. -/
theorem reported_effect {es : List AddrChange} (env : Env) (w : World)
    (hes : ∀ e ∈ es, e.Reads env.asio) :
    let s := performAll env (AddrChange.allRequests {} (AddrChange.named es)) (.ok, w)
    effect (ietfInterfaceIpv46AddressChangeCb env .verify (.ok (AddrChange.reported es)) w) =
      ⟨if ∀ e ∈ es, e.itf ≠ "" then .returns s.1 else .returns .operationFailed,
        s.2.ops, s.2.om, s.2.table⟩ := by
  intro s
  rw [addr_effect env w (by simp) (by simp), pass_reported_named hes]
  by_cases hne : ∀ e ∈ es, e.itf ≠ ""
  · rw [if_pos hne, if_pos hne]
    rfl
  · rw [if_neg hne, if_neg hne]
    rfl

/-- A change of the address 10.0.0.d of an interface. -/
def hostAddress (itf : String) (d : UInt8) (op : EntryOp) : AddrChange where
  itf := itf
  family := .ipv4
  text := Asio.uncompressed.toString (.v4 10 0 0 d)
  address := .v4 10 0 0 d
  op := op

@[simp] theorem hostAddress_reads {itf : String} {d : UInt8} {op : EntryOp} :
    (hostAddress itf d op).Reads Env.accepting.asio ↔ op.Reads Env.accepting.asio :=
  and_iff_right (Asio.uncompressed_lawful.fromString_toString _)

end Sweetcomb
