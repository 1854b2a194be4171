import LcdPico.HostPlatform
import LcdPico.Httpd
import LcdPico.Lib.Machine

/-!
# Concurrent requests for a status page

Two requests call the handler of one page, in any order, each with the part numbers
that it was given. The document that is generated last is the one that every call
takes its text from, so each request gets its own document exactly if no request
begins while another one is half sent.
-/

namespace LcdPico

/-! ## Requests and their calls -/

/-- The two status pages. -/
inductive StatsPage where
  | csv
  | json

/-- A request, with the part that it asks for next (none when it is complete), the
document that its first call generated, and the text that was returned to it. -/
structure Request where
  next : Option UInt16
  document : Option CString
  sent : CString

/-- A request before its first call. -/
def Request.new : Request := { next := some 0, document := none, sent := [] }

/-- It has a document, not all of which was returned. -/
def Request.HalfSent (r : Request) : Prop := r.document.isSome ∧ r.next.isSome

instance (r : Request) : Decidable r.HalfSent :=
  inferInstanceAs (Decidable (r.document.isSome ∧ r.next.isSome))

/-- What was returned is the document. Where memory ran out there is none, and
nothing is returned. -/
def Request.Right (r : Request) : Prop := r.sent = r.document.getD []

instance (r : Request) : Decidable r.Right :=
  inferInstanceAs (Decidable (r.sent = r.document.getD []))

/-- The static variables of the page, and the two requests. -/
structure Server where
  stats : StatsState
  request : Bool → Request

def Server.init : Server := { stats := .init, request := fun _ => .new }

/-- The request `who` becomes `r`. -/
def setRequest (request : Bool → Request) (who : Bool) (r : Request) : Bool → Request :=
  fun w => if w = who then r else request w

@[simp] theorem setRequest_self (request : Bool → Request) (who : Bool) (r : Request) :
    setRequest request who r who = r := if_pos rfl

@[simp] theorem setRequest_other (request : Bool → Request) (who : Bool) (r : Request) :
    setRequest request who r (!who) = request (!who) := by
  cases who <;> rfl

/-- Any request is the one that calls, or the other one. -/
theorem self_or_other (w who : Bool) : w = who ∨ w = !who := by
  cases w <;> cases who <;> simp

/-- What holds of the request that is set, and of the other one, holds of both. -/
theorem forall_setRequest {Q : Request → Prop} {request : Bool → Request} {who : Bool} {r : Request}
    (hr : Q r) (hother : Q (request (!who))) (w : Bool) : Q (setRequest request who r w) := by
  rcases self_or_other w who with rfl | rfl
  · rw [setRequest_self]
    exact hr
  · rw [setRequest_other]
    exact hother

section

variable {F D : Type}

/-- A call of the request `who`, with the state at that time. -/
structure StatsCall (F : Type) where
  who : Bool
  insertlen : Nat
  insertlen_ge : 2 ≤ insertlen
  memory : Bool
  st : SystemState
  cfg : SystemConfig F

variable [Inhabited F] (P : Printer F D)

def StatsPage.document (page : StatsPage) (st : SystemState) (cfg : SystemConfig F) : CString :=
  match page with
  | .csv => csvDocument P st cfg
  | .json => jsonDocument P st cfg

def StatsPage.handler (page : StatsPage) (memory : Bool) (st : SystemState) (cfg : SystemConfig F) :
    StatsState → Nat → UInt16 → StatsState × Part :=
  match page with
  | .csv => csvStats P memory st cfg
  | .json => jsonStats P memory st cfg

/-- The document that the call generates if it is a first one. -/
def StatsCall.generated (page : StatsPage) (c : StatsCall F) : Option CString :=
  if c.memory then some (page.document P c.st c.cfg) else none

/-- A call; a request that is complete makes none. -/
def callStep (page : StatsPage) (s : Server) (c : StatsCall F) : Server :=
  let r := s.request c.who
  match r.next with
  | none => s
  | some part =>
    let (stats, res) := page.handler P c.memory c.st c.cfg s.stats c.insertlen part
    { stats := stats
      request := setRequest s.request c.who
        { next := res.nextTagPart
          document := if part = 0 then c.generated P page else r.document
          sent := r.sent ++ res.text } }

/-- The call begins no document while one is half sent; it is a first one of its
request, and the other request is not half sent unless memory runs out. -/
def Separate (page : StatsPage) (s : Server) (c : StatsCall F) : Prop :=
  (s.request c.who).next = some 0 →
    ¬ (s.request c.who).HalfSent ∧
      ((c.generated P page).isSome → ¬ (s.request (!c.who)).HalfSent)

instance (page : StatsPage) (s : Server) (c : StatsCall F) : Decidable (Separate P page s c) :=
  inferInstanceAs (Decidable (_ → _ ∧ (_ → _)))

/-- What a call does: nothing if its request is complete, else it begins a document,
or takes the next part of the one that was generated last. -/
inductive CallEffect (page : StatsPage) (s : Server) (c : StatsCall F) : Server → Prop
  | idle : (s.request c.who).next = none → CallEffect page s c s
  | noMemory : (s.request c.who).next = some 0 → c.generated P page = none →
    CallEffect page s c
      { stats := s.stats
        request := setRequest s.request c.who
          { next := none, document := none, sent := (s.request c.who).sent } }
  | begins (text rest : CString) : (s.request c.who).next = some 0 →
    c.generated P page = some (text ++ rest) → (rest ≠ [] → text ≠ []) →
    CallEffect page s c
      { stats := { p := rest, part := if rest = [] then 1 else 2, bufLeft := rest.length }
        request := setRequest s.request c.who
          { next := if rest = [] then none else some 1
            document := some (text ++ rest)
            sent := (s.request c.who).sent ++ text } }
  | continues (part : UInt16) (text rest : CString) : (s.request c.who).next = some part →
    part ≠ 0 → s.stats.p = text ++ rest → (rest ≠ [] → text ≠ []) →
    CallEffect page s c
      { stats :=
          { p := rest
            part := if rest = [] then s.stats.part else s.stats.part + 1
            bufLeft := rest.length }
        request := setRequest s.request c.who
          { next := if rest = [] then none else some s.stats.part
            document := (s.request c.who).document
            sent := (s.request c.who).sent ++ text } }

variable {P} {page : StatsPage} {s s' : Server} {c : StatsCall F}

theorem callStep_effect (P : Printer F D) (page : StatsPage) (hs : s.stats.Ok) (c : StatsCall F) :
    CallEffect P page s c (callStep P page s c) := by
  have hhandler : page.handler P c.memory c.st c.cfg = statsPart (c.generated P page) := by
    cases page <;> rfl
  simp only [callStep, hhandler]
  cases hnext : (s.request c.who).next with
  | none => exact .idle hnext
  | some part =>
    by_cases hpart : part = 0
    · subst hpart
      cases hdoc : c.generated P page with
      | none =>
        simp only [statsPart, if_true, List.append_nil]
        exact .noMemory hnext hdoc
      | some buf =>
        have hok : StatsState.Ok { p := buf, part := 1, bufLeft := buf.length } := rfl
        obtain ⟨text, rest, hbuf, hne, hcopy⟩ := copyPart_spec hok c.insertlen_ge
        obtain rfl : buf = text ++ rest := hbuf
        simp only [statsPart, if_true, hcopy]
        exact .begins text rest hnext hdoc hne
    · obtain ⟨text, rest, hp, hne, hcopy⟩ := copyPart_spec hs c.insertlen_ge
      simp only [statsPart, if_neg hpart, hcopy]
      exact .continues part text rest hnext hpart hp hne

/-! ## Separate requests -/

/-- What a request is like while none begins in the middle of another one, when `p`
is left of the document that was generated last. -/
inductive Request.Consistent (p : CString) : Request → Prop
  | waiting : Consistent p .new
  | noMemory : Consistent p { next := none, document := none, sent := [] }
  | half (part : UInt16) (sent : CString) : p ≠ [] →
    Consistent p { next := some part, document := some (sent ++ p), sent := sent }
  | complete (doc : CString) : Consistent p { next := none, document := some doc, sent := doc }

namespace Request.Consistent

variable {p : CString} {r : Request}

/-- A first call is that of a request that waits. -/
theorem eq_new (h : r.Consistent p) (hnext : r.next = some 0) (hhalf : ¬ r.HalfSent) :
    r = .new := by
  cases h with
  | waiting => rfl
  | noMemory => cases hnext
  | half => exact absurd ⟨rfl, rfl⟩ hhalf
  | complete => cases hnext

/-- Another call is that of a request which is half sent. -/
theorem document_eq (h : r.Consistent p) {part : UInt16} (hnext : r.next = some part)
    (hpart : part ≠ 0) : r.document = some (r.sent ++ p) := by
  cases h with
  | waiting => exact absurd (Option.some.inj hnext).symm hpart
  | noMemory => cases hnext
  | half => rfl
  | complete => cases hnext

/-- A request that is half sent, and what is left for it. -/
theorem of_halfSent (h : r.Consistent p) (hhalf : r.HalfSent) :
    r.document = some (r.sent ++ p) ∧ p ≠ [] := by
  cases h with
  | waiting => cases hhalf.1
  | noMemory => cases hhalf.2
  | half _ _ hp => exact ⟨rfl, hp⟩
  | complete => cases hhalf.2

/-- Only a request that is half sent depends on what is left. -/
theorem of_not_halfSent (h : r.Consistent p) (hhalf : ¬ r.HalfSent) (p' : CString) :
    r.Consistent p' := by
  cases h with
  | waiting => exact .waiting
  | noMemory => exact .noMemory
  | half => exact absurd ⟨rfl, rfl⟩ hhalf
  | complete doc => exact .complete doc

/-- The next part was returned. -/
theorem next (h : r.document = some (r.sent ++ p)) {text rest : CString} (hp : p = text ++ rest)
    (part : UInt16) :
    Request.Consistent rest
      { next := if rest = [] then none else some part
        document := r.document
        sent := r.sent ++ text } := by
  rw [h, hp, ← List.append_assoc]
  split_ifs with hrest
  · subst hrest
    rw [List.append_nil]
    exact .complete _
  · exact .half part _ hrest

/-- A request that is complete was returned its document. -/
theorem right (h : r.Consistent p) (hnext : r.next = none) : r.Right := by
  cases h with
  | waiting => cases hnext
  | noMemory => rfl
  | half => cases hnext
  | complete => rfl

end Request.Consistent

/-- At most one request is half sent. -/
structure Good (s : Server) : Prop where
  ok : s.stats.Ok
  request : ∀ w, (s.request w).Consistent s.stats.p
  one : ∀ w, (s.request w).HalfSent → ¬ (s.request (!w)).HalfSent

theorem Good.init : Good Server.init where
  ok := rfl
  request _ := .waiting
  one _ h := by cases h.1

/-- The requests after a call of `who` that leaves the other one not half sent. -/
theorem Good.setRequest {stats : StatsState} (hok : stats.Ok) {request : Bool → Request}
    {who : Bool} {r : Request} (hr : r.Consistent stats.p)
    (hother : (request (!who)).Consistent stats.p)
    (hhalf : r.HalfSent → ¬ (request (!who)).HalfSent) :
    Good { stats := stats, request := LcdPico.setRequest request who r } where
  ok := hok
  request := forall_setRequest hr hother
  one w := by
    dsimp only
    rcases self_or_other w who with rfl | rfl
    · rw [setRequest_self, setRequest_other]
      exact hhalf
    · rw [setRequest_other, Bool.not_not, setRequest_self]
      exact fun hw hself => hhalf hself hw

/-- A separate call keeps the requests apart. -/
theorem Good.step (h : Good s) (hc : Separate P page s c) : Good (callStep P page s c) := by
  have heffect := callStep_effect P page h.ok c
  generalize callStep P page s c = s' at heffect ⊢
  have hself := h.request c.who
  have hother := h.request (!c.who)
  cases heffect with
  | idle => exact h
  | noMemory hnext hdoc =>
    obtain ⟨hhalf, -⟩ := hc hnext
    rw [hself.eq_new hnext hhalf]
    exact .setRequest h.ok .noMemory hother fun hr => by cases hr.2
  | begins text rest hnext hdoc =>
    obtain ⟨hhalf, hsep⟩ := hc hnext
    have hfree := hsep (by rw [hdoc]; rfl)
    rw [hself.eq_new hnext hhalf]
    have hr := Request.Consistent.next (r := { Request.new with document := some (text ++ rest) })
      rfl rfl 1
    refine .setRequest ?_ hr (hother.of_not_halfSent hfree rest) fun _ => hfree
    rfl
  | continues part text rest hnext hpart hp =>
    have hdoc := hself.document_eq hnext hpart
    -- the one that continues is half sent, so the other one is not
    have hfree := h.one c.who ⟨by rw [hdoc]; rfl, by rw [hnext]; rfl⟩
    refine .setRequest ?_ (.next hdoc hp _) (hother.of_not_halfSent hfree rest) fun _ => hfree
    rfl

/-! ## Overlapping requests -/

/-- The numbers of the parts have not run over: no request that has begun is given
the number 0 again. -/
structure Counted (s : Server) : Prop where
  ok : s.stats.Ok
  bound : s.stats.part.toNat + s.stats.p.length ≤ 65535
  pos : s.stats.p ≠ [] → s.stats.part ≠ 0
  begun : ∀ w, (s.request w).document.isSome → (s.request w).next ≠ some 0

theorem Counted.init : Counted Server.init where
  ok := rfl
  bound := by decide
  pos h := absurd rfl h
  begun _ h := by cases h

/-- The numbers of the parts do not run over while the documents are short. -/
theorem Counted.step (h : Counted s)
    (hshort : ∀ doc, c.generated P page = some doc → doc.length < 65535) :
    Counted (callStep P page s c) := by
  have heffect := callStep_effect P page h.ok c
  generalize callStep P page s c = s' at heffect ⊢
  have hbegun : ∀ {r : Request}, (r.document.isSome → r.next ≠ some 0) → ∀ w,
      (setRequest s.request c.who r w).document.isSome →
      (setRequest s.request c.who r w).next ≠ some 0 := fun hr =>
    forall_setRequest (Q := fun r => r.document.isSome → r.next ≠ some 0) hr (h.begun _)
  cases heffect with
  | idle => exact h
  | noMemory => exact ⟨h.ok, h.bound, h.pos, hbegun fun hdoc => by cases hdoc⟩
  | begins text rest hnext hdoc hne =>
    have hlen := hshort _ hdoc
    rw [List.length_append] at hlen
    refine ⟨rfl, ?_, ?_, hbegun fun _ => ?_⟩
    · dsimp only
      split_ifs with hrest
      · subst hrest
        decide
      · have htext := List.length_pos_iff.mpr (hne hrest)
        have hpart : (2 : UInt16).toNat = 2 := rfl
        omega
    · intro hrest
      dsimp only at hrest ⊢
      rw [if_neg hrest]
      decide
    · dsimp only
      split_ifs
      · exact Option.some_ne_none 0 |>.symm
      · decide
  | continues part text rest hnext hpart hp hne =>
    have hbound := h.bound
    have hpos := h.pos
    rw [hp] at hbound hpos
    rw [List.length_append] at hbound
    -- each part has a character at least, so the bound leaves room for its number
    have hcounted : rest ≠ [] → s.stats.part ≠ 0 ∧
        (s.stats.part + 1).toNat = s.stats.part.toNat + 1 ∧ 0 < text.length := by
      intro hrest
      have htext := List.length_pos_iff.mpr (hne hrest)
      have hlen := List.length_pos_iff.mpr hrest
      refine ⟨hpos (List.append_ne_nil_of_right_ne_nil text hrest), ?_, htext⟩
      rw [UInt16.toNat_add]
      have hone : (1 : UInt16).toNat = 1 := rfl
      omega
    refine ⟨rfl, ?_, ?_, hbegun fun _ => ?_⟩
    · dsimp only
      split_ifs with hrest
      · omega
      · obtain ⟨-, hpart', htext⟩ := hcounted hrest
        omega
    · intro hrest
      dsimp only at hrest ⊢
      obtain ⟨-, hpart', -⟩ := hcounted hrest
      rw [if_neg hrest]
      intro hzero
      rw [hzero] at hpart'
      have : (0 : UInt16).toNat = 0 := rfl
      omega
    · dsimp only
      split_ifs with hrest
      · exact Option.some_ne_none 0 |>.symm
      · exact fun heq => (hcounted hrest).1 (Option.some.inj heq)

/-- Both requests have begun, and there is not enough left for both of them. -/
structure Overlapped (s : Server) : Prop where
  begun : ∀ w, (s.request w).document.isSome
  short : ∀ w, (s.request w).sent.length + (s.request (!w)).sent.length + s.stats.p.length <
    ((s.request w).document.getD []).length + ((s.request (!w)).document.getD []).length

/-- It is enough that there is too little left for the one that calls and the other. -/
theorem Overlapped.setRequest {stats : StatsState} {request : Bool → Request} {who : Bool}
    {r : Request} (hr : r.document.isSome) (hother : (request (!who)).document.isSome)
    (hshort : r.sent.length + (request (!who)).sent.length + stats.p.length <
      (r.document.getD []).length + ((request (!who)).document.getD []).length) :
    Overlapped { stats := stats, request := LcdPico.setRequest request who r } where
  begun := forall_setRequest (Q := fun r => r.document.isSome) hr hother
  short w := by
    dsimp only
    rcases self_or_other w who with rfl | rfl
    · rw [setRequest_self, setRequest_other]
      exact hshort
    · rw [setRequest_other, Bool.not_not, setRequest_self]
      omega

/-- A document that begins while another request is half sent replaces what was left
for that one. -/
theorem Good.overlapped (h : Good s) (hcounted : Counted s) (hc : ¬ Separate P page s c) :
    Overlapped (callStep P page s c) := by
  have heffect := callStep_effect P page h.ok c
  generalize callStep P page s c = s' at heffect ⊢
  have hself := h.request c.who
  rw [Separate, Classical.not_imp] at hc
  obtain ⟨hfirst, hc⟩ := hc
  have hhalf : ¬ (s.request c.who).HalfSent := fun hbegun => hcounted.begun _ hbegun.1 hfirst
  have hover : (c.generated P page).isSome ∧ (s.request (!c.who)).HalfSent := by
    rw [not_and] at hc
    exact Classical.not_imp.mp (hc hhalf) |>.imp_right not_not.mp
  obtain ⟨hgen, hother⟩ := hover
  obtain ⟨hdoc, hp⟩ := (h.request (!c.who)).of_halfSent hother
  cases heffect with
  | idle hnext => rw [hfirst] at hnext; cases hnext
  | noMemory hnext hnone => rw [hnone] at hgen; cases hgen
  | begins text rest hnext hbuf =>
    rw [hself.eq_new hnext hhalf]
    refine .setRequest rfl hother.1 ?_
    have hleft := List.length_pos_iff.mpr hp
    simp only [hdoc, Request.new, List.nil_append, Option.getD_some, List.length_append]
    omega
  | continues part text rest hnext hpart =>
    rw [hfirst] at hnext
    exact absurd (Option.some.inj hnext).symm hpart

/-- What one of the requests is returned, the other one misses. -/
theorem Overlapped.step (h : Overlapped s) (hcounted : Counted s) :
    Overlapped (callStep P page s c) := by
  have heffect := callStep_effect P page hcounted.ok c
  generalize callStep P page s c = s' at heffect ⊢
  cases heffect with
  | idle => exact h
  | noMemory hnext => exact absurd hnext (hcounted.begun _ (h.begun _))
  | begins text rest hnext => exact absurd hnext (hcounted.begun _ (h.begun _))
  | continues part text rest hnext hpart hp =>
    refine .setRequest (h.begun _) (h.begun _) ?_
    have hshort := h.short c.who
    rw [hp, List.length_append] at hshort
    simp only [List.length_append]
    omega

/-- Not both requests are returned their documents. -/
theorem Overlapped.not_right (h : Overlapped s) : ¬ ∀ w, (s.request w).Right := by
  intro hright
  have hshort := h.short false
  rw [hright false, hright (!false)] at hshort
  omega

/-! ## The responses -/

/-- All documents that the calls could begin are short. -/
def ShortDocuments (P : Printer F D) (page : StatsPage) (calls : List (StatsCall F)) : Prop :=
  ∀ c ∈ calls, (page.document P c.st c.cfg).length < 65535

theorem generated_short {calls : List (StatsCall F)} (hshort : ShortDocuments P page calls)
    (hmem : c ∈ calls) : ∀ doc, c.generated P page = some doc → doc.length < 65535 := by
  intro doc hdoc
  rw [StatsCall.generated] at hdoc
  split_ifs at hdoc
  obtain rfl := Option.some.inj hdoc
  exact hshort c hmem

/-- The documents of the CSV page are short. -/
theorem shortDocuments_csv (P : Printer F D) (calls : List (StatsCall F)) :
    ShortDocuments P .csv calls := fun c _ =>
  Nat.lt_trans (length_csvDocument P c.st c.cfg) (by decide)

/-- Requests that overlap stay so. -/
theorem Overlapped.run {calls : List (StatsCall F)} (hshort : ShortDocuments P page calls)
    (h : Overlapped s) (hcounted : Counted s) :
    Overlapped (Machine.run (callStep P page) s calls) := by
  induction calls generalizing s with
  | nil => exact h
  | cons c calls ih =>
    have hc := generated_short hshort (List.mem_cons_self ..)
    exact ih (fun c' hc' => hshort c' (List.mem_cons_of_mem c hc')) (h.step hcounted)
      (hcounted.step hc)

/-- Calls after which both requests were returned their documents are separate. -/
theorem within_of_right {calls : List (StatsCall F)} (hshort : ShortDocuments P page calls)
    (h : Good s) (hcounted : Counted s)
    (hright : ∀ w, ((Machine.run (callStep P page) s calls).request w).Right) :
    Machine.Within (callStep P page) (Separate P page) s calls := by
  induction calls generalizing s with
  | nil => trivial
  | cons c calls ih =>
    have hc := generated_short hshort (List.mem_cons_self ..)
    have hrest : ShortDocuments P page calls := fun c' hc' =>
      hshort c' (List.mem_cons_of_mem c hc')
    by_cases hsep : Separate P page s c
    · exact ⟨hsep, ih hrest (h.step hsep) (hcounted.step hc) hright⟩
    · have hover := (h.overlapped hcounted hsep).run hrest (hcounted.step hc)
      exact absurd hright hover.not_right

/-- Two requests for a page are each returned the document that was generated for
them if no call begins a document in the middle of another one; and only then, as
long as the parts of a document can be numbered. Those of the CSV page can. -/
theorem stats_responses (P : Printer F D) (page : StatsPage) (calls : List (StatsCall F)) :
    (Machine.Within (callStep P page) (Separate P page) .init calls →
      ∀ w, ((Machine.run (callStep P page) .init calls).request w).next = none →
        ((Machine.run (callStep P page) .init calls).request w).Right) ∧
    ((page = .json → ShortDocuments P page calls) →
      (∀ w, ((Machine.run (callStep P page) .init calls).request w).Right) →
      Machine.Within (callStep P page) (Separate P page) .init calls) := by
  constructor
  · intro hcalls w hnext
    have hgood := Machine.run_within (P := Good) (fun _ _ h hc => h.step hc) Good.init hcalls
    exact (hgood.request w).right hnext
  · intro hshort hright
    have hshort : ShortDocuments P page calls := by
      cases page with
      | csv => exact shortDocuments_csv P calls
      | json => exact hshort rfl
    exact within_of_right hshort .init .init hright

end

/-! ## On the host platform -/

/-- `printf` of a number with so many decimals. -/
def fixedDecimal (decimals : Nat) (q : ℚ) : CString :=
  let n := (q.num.natAbs * 10 ^ decimals * 2 + q.den) / (q.den * 2)
  let frac := CText.utoa (n % 10 ^ decimals)
  (if q < 0 then ['-'] else []) ++ CText.utoa (n / 10 ^ decimals) ++
    if decimals = 0 then []
    else '.' :: List.replicate (decimals - frac.length) '0' ++ frac

mutual

/-- `cJSON_Print`, of numbers with at most one decimal. -/
def printJson (depth : Nat) : Json (Option ℚ) → CString
  | .null => "null".toList
  | .bool b => if b then "true".toList else "false".toList
  | .number none => "null".toList
  | .number (some q) => fixedDecimal (if q.den = 1 then 0 else 1) q
  | .string s => '"' :: s ++ ['"']
  | .array items => '[' :: printItems depth items ++ [']']
  | .object fields =>
    '{' :: '\n' :: printFields (depth + 1) fields ++ List.replicate depth '\t' ++ ['}']

def printItems (depth : Nat) : List (Json (Option ℚ)) → CString
  | [] => []
  | item :: items =>
    printJson depth item ++ (if items.isEmpty then [] else ", ".toList) ++ printItems depth items

def printFields (depth : Nat) : List (CString × Json (Option ℚ)) → CString
  | [] => []
  | field :: fields =>
    printField depth field ++ (if fields.isEmpty then ['\n'] else ",\n".toList) ++
      printFields depth fields

def printField (depth : Nat) : CString × Json (Option ℚ) → CString
  | (name, value) =>
    List.replicate depth '\t' ++ '"' :: name ++ "\":\t".toList ++ printJson depth value

end

def hostPrinter : Printer ℚ (Option ℚ) :=
  { hostPlatform with
    fixed := fixedDecimal
    mul := fun a b => a.bind fun a => b.map fun b => a * b
    div := fun a b => a.bind fun a => b.map fun b => a / b
    round := fun a => a.map fun a =>
      if a < 0 then -(Rat.floor (-a + 1 / 2)) else Rat.floor (a + 1 / 2)
    cjsonPrint := printJson 0 }

/-- A call with lwIP's default length, of a device that shows a reading. -/
def hostCall (who : Bool) : StatsCall ℚ :=
  { who := who
    insertlen := 192
    insertlen_ge := by decide
    memory := true
    st := { dmm := decoder34401Init, disp := ⟨" 1.2345 VDC".toList, by decide⟩ }
    cfg := clearConfig hostPlatform }

/-- The requests for the CSV page after the calls. -/
def hostRequest (calls : List Bool) : Bool → Request :=
  (Machine.run (callStep hostPrinter .csv) .init (calls.map hostCall)).request

theorem stats_responses_sequence :
    (∀ w, (hostRequest [false, false, true, true] w).Right) ∧
      Machine.Within (callStep hostPrinter .csv) (Separate hostPrinter .csv) .init
        ([false, false, true, true].map hostCall) := by
  have hcalls : Machine.Within (callStep hostPrinter .csv) (Separate hostPrinter .csv) .init
      ([false, false, true, true].map hostCall) :=
    ⟨by decide +kernel, by decide +kernel, by decide +kernel, by decide +kernel, trivial⟩
  have hnext : ∀ w, (hostRequest [false, false, true, true] w).next = none := by decide +kernel
  unfold hostRequest at hnext ⊢
  have hright := fun w => (stats_responses hostPrinter .csv _).1 hcalls w (hnext w)
  exact ⟨hright, (stats_responses hostPrinter .csv _).2 (fun h => by cases h) hright⟩

/-- The second request begins after the first part of the first one, which then takes
the rest of the document of the second one. -/
theorem stats_responses_overlap :
    (∀ w, (hostRequest [false, true, false, true] w).next = none) ∧
      ¬ (hostRequest [false, true, false, true] true).Right :=
  ⟨by decide +kernel, by decide +kernel⟩

end LcdPico
