import ModularLexer.Proofs.Coupling.Programs
import ModularLexer.Proofs.Segmentation.Matching
import ModularLexer.Proofs.Stream.Ending

/-!
Every token costs a character. Handlers of patterns that bring no tokens of their own can only trade
input for tokens: with the characters that are left each token that waits counts as one that is due,
and a token is made, looked at or taken for at least one of them.
-/
namespace ModularLexer

/-- Nothing but input was taken: the same tokens wait, and the handlers are the same. -/
structure Machine.Consumes (m n : Machine) : Prop where
  queue : n.queue = m.queue
  registry : n.lexer.registry = m.lexer.registry
  rest : n.lexer.pass.rest <:+ m.lexer.pass.rest

namespace Machine.Consumes

variable {m n k : Machine}

theorem refl (m : Machine) : m.Consumes m := ⟨rfl, rfl, List.suffix_refl _⟩

theorem trans (h : m.Consumes n) (h' : n.Consumes k) : m.Consumes k :=
  ⟨h'.queue.trans h.queue, h'.registry.trans h.registry, h'.rest.trans h.rest⟩

theorem withPass {p : Pass} (hqueue : p.queue = m.queue) (hrest : p.rest <:+ m.lexer.pass.rest) :
    m.Consumes (m.withPass p) := ⟨hqueue, rfl, hrest⟩

end Machine.Consumes

namespace LexM

variable {α β : Type}

def Immediate (x : LexM α) : Prop := ∀ m, ∃ r n, x m = some (r, n) ∧ m.Consumes n

namespace Immediate

theorem pure (a : α) : Immediate (Pure.pure a : LexM α) := fun m => ⟨_, _, rfl, .refl m⟩

theorem throw (e : LexError) : Immediate (throw e : LexM α) := fun m => ⟨_, _, rfl, .refl m⟩

theorem ofExcept (r : Except LexError α) : Immediate (ofExcept r) :=
  fun m => ⟨_, _, ofExcept_apply r m, .refl m⟩

theorem lexer : Immediate lexer := fun m => ⟨_, _, rfl, .refl m⟩

theorem pass : Immediate pass := fun m => ⟨_, _, rfl, .refl m⟩

theorem bind {x : LexM α} {f : α → LexM β} (hx : Immediate x) (hf : ∀ a, Immediate (f a)) :
    Immediate (x >>= f) := by
  intro m
  obtain ⟨e | a, k, hk, hmk⟩ := hx m
  · exact ⟨_, k, bind_of_error hk, hmk⟩
  · obtain ⟨r, n, hn, hkn⟩ := hf a k
    exact ⟨r, n, by rw [bind_of_ok hk, hn], hmk.trans hkn⟩

theorem view : Immediate (do return (← LexM.lexer).view) := lexer.bind fun _ => pure _

theorem hooks : Immediate (do return (← LexM.lexer).options.hooks) := lexer.bind fun _ => pure _

theorem modifyPass {f : Pass → Pass} (hf : ∀ p, (f p).queue = p.queue ∧ (f p).rest <:+ p.rest) :
    Immediate (modifyPass f) :=
  fun m => ⟨_, _, rfl, .withPass (hf m.lexer.pass).1 (hf m.lexer.pass).2⟩

theorem record (e : Event) : Immediate (record e) :=
  fun _ => ⟨_, _, rfl, rfl, rfl, List.suffix_refl _⟩

theorem notify (installed : Hooks → Bool) (e : Event) : Immediate (notify installed e) := by
  apply lexer.bind
  intro l
  split
  · exact record e
  · exact pure ()

theorem report (e : LexError) : Immediate (report e) := by
  apply lexer.bind
  intro l
  split
  · exact record _
  · exact throw e

theorem consume (bytes : Nat) : Immediate (consume bytes) := by
  intro m
  unfold LexM.consume
  rw [bind_of_ok (pass_apply m)]
  rcases hc : m.lexer.pass.consume bytes with e | ⟨taken, p⟩
  · exact ⟨_, _, rfl, .refl m⟩
  · obtain ⟨rest, hrest, -, rfl⟩ := Pass.consume_eq_ok_iff.1 hc
    exact ⟨_, _, rfl, .withPass rfl ⟨taken, hrest.symm⟩⟩

theorem consumeAs (bytes : Nat) (value : Text) : Immediate (consumeAs bytes value) := by
  intro m
  unfold LexM.consumeAs
  rw [bind_of_ok (pass_apply m)]
  rcases hc : m.lexer.pass.consumeAs bytes value with e | p
  · exact ⟨_, _, rfl, .refl m⟩
  · obtain ⟨taken, rest, hrest, -, rfl⟩ := Pass.consumeAs_eq_ok_iff.1 hc
    exact ⟨_, _, rfl, .withPass rfl ⟨taken, hrest.symm⟩⟩

theorem matchPattern (pattern : Pattern) : Immediate (matchPattern pattern) := by
  apply (ofExcept _).bind
  intro _
  apply pass.bind
  intro p
  split
  · exact pure none
  · split
    · exact throw _
    · exact (consume _).bind fun _ => pure _

theorem skipSpaces : Immediate skipSpaces := (matchPattern _).bind fun _ => pure _

theorem token (kind : String) (value : Option Text) : Immediate (token kind value) :=
  (notify _ _).bind fun _ => pure _

theorem tokenFrom (kind : String) (captures : Captures) : Immediate (tokenFrom kind captures) :=
  (notify _ _).bind fun _ => pure _

theorem locationFrom (start : Position) : Immediate (locationFrom start) :=
  lexer.bind fun _ => pure _

theorem scan (pattern : Pattern) (kind : String) : Immediate (scan pattern kind) := by
  apply pass.bind
  intro p
  apply (matchPattern pattern).bind
  intro captures?
  cases captures? with
  | none => exact pure none
  | some captures =>
    apply (tokenFrom kind captures).bind
    intro t
    apply (locationFrom p.position).bind
    intro l
    exact (notify _ _).bind fun _ => pure _

theorem characterToken (c : Char) : Immediate (characterToken c) := by
  apply pass.bind
  intro p
  apply (consume _).bind
  intro taken
  apply (token _ _).bind
  intro t
  exact (locationFrom _).bind fun _ => pure _

theorem push (t : Token) : Immediate (push t) :=
  (notify _ _).bind fun _ => modifyPass fun _ => ⟨rfl, List.suffix_refl _⟩

theorem move (value : Text) (bytes : Nat) :
    Immediate (LexM.modifyPass (·.move value bytes)) := by
  apply modifyPass
  exact fun _ => ⟨rfl, List.suffix_refl _⟩

theorem pushStack (t : Token) : Immediate (LexM.modifyPass (·.pushStack t)) := by
  apply modifyPass
  exact fun _ => ⟨rfl, List.suffix_refl _⟩

theorem popStack : Immediate (do
    let (t, p) := (← LexM.pass).popStack
    setPass p
    return t) := by
  intro m
  have hsame : m.lexer.pass.popStack.2.queue = m.queue ∧
      m.lexer.pass.popStack.2.rest <:+ m.lexer.pass.rest := by
    unfold Pass.popStack
    split <;> exact ⟨rfl, List.suffix_refl _⟩
  exact ⟨_, _, rfl, .withPass hsame.1 hsame.2⟩

theorem append (value : Text) : Immediate (LexM.modifyPass (·.append value)) := by
  apply modifyPass
  intro p
  unfold Pass.append
  split
  · exact ⟨rfl, List.suffix_refl _⟩
  · split <;> exact ⟨rfl, List.suffix_refl _⟩

theorem finish : Immediate finish := by
  apply pass.bind
  intro p
  split
  · exact report _
  · exact pure ()

end Immediate

end LexM

/-- Whether a request neither starts over nor brings a token of its own. -/
def Request.Frugal : Request → Prop
  | init _ => False
  | tokenize _ => False
  | enqueue _ => False
  | _ => True

/-- A conduct of captured patterns, with transforms that neither start over nor bring tokens of
their own. -/
structure Conduct.Capturing (K : Conduct) : Prop where
  frugal {r : Request} : K.allowed r → r.Frugal
  captures {h : Handler} : K.known h → (∃ kind p, h = .ofPattern kind p) ∨
    ∃ kind p transform, h = .ofPatternWith kind p transform

/-- The most tokens that can still come: those that wait, and one for each character left. -/
def Machine.due (m : Machine) : Nat := m.queue.length + m.lexer.pass.rest.length

variable {K : Conduct}

/-- So many tokens were made, each for a character that was taken and for one that was due. -/
structure Machine.Paid (K : Conduct) (m : Machine) (made : Nat) (n : Machine) : Prop where
  follows : n.Follows K
  due : n.due + made ≤ m.due
  taken : ∃ taken, m.lexer.pass.rest = taken ++ n.lexer.pass.rest ∧ made ≤ taken.length

namespace Machine.Paid

variable {m n k : Machine} {made more : Nat}

theorem mono (h : m.Paid K made n) (hle : more ≤ made) : m.Paid K more n := by
  obtain ⟨hfollows, hdue, taken, hrest, hmade⟩ := h
  exact ⟨hfollows, by omega, taken, hrest, by omega⟩

theorem trans (h : m.Paid K made n) (h' : n.Paid K more k) : m.Paid K (made + more) k := by
  obtain ⟨-, hdue, taken, hrest, hmade⟩ := h
  obtain ⟨hfollows, hdue', taken', hrest', hmore⟩ := h'
  refine ⟨hfollows, by omega, taken ++ taken', ?_, ?_⟩
  · rw [hrest, hrest', List.append_assoc]
  · rw [List.length_append]
    omega

theorem of_consumes (hm : m.Follows K) (h : m.Consumes n) : m.Paid K 0 n := by
  obtain ⟨taken, hrest⟩ := h.rest
  refine ⟨?_, ?_, taken, hrest.symm, Nat.zero_le _⟩
  · unfold Follows
    rw [h.registry]
    exact hm
  · unfold Machine.due
    rw [h.queue, ← hrest, List.length_append]
    omega

theorem refl (hm : m.Follows K) : m.Paid K 0 m := of_consumes hm (.refl m)

/-- A text that is consumed pays for as many tokens as it has characters. -/
theorem of_past (hm : m.Follows K) {text after : Text} (hrest : m.lexer.pass.rest = text ++ after)
    (hlexer : n.lexer = { m.lexer with pass := m.lexer.pass.past text after })
    (hmade : made ≤ text.length) : m.Paid K made n := by
  have hafter : n.lexer.pass.rest = after := by rw [hlexer]; rfl
  have hqueue : n.queue = m.queue := by rw [Machine.queue, hlexer]; rfl
  refine ⟨?_, ?_, text, hafter ▸ hrest, hmade⟩
  · unfold Follows
    rw [hlexer]
    exact hm
  · unfold Machine.due
    rw [hqueue, hafter, hrest, List.length_append]
    omega

end Machine.Paid

def made? : Option Token → Nat
  | some _ => 1
  | none => 0

namespace LexM

variable {α β : Type}

def worth (made : α → Nat) : Except LexError α → Nat
  | .ok a => made a
  | .error _ => 0

/-- Whatever a computation makes beyond what it is given is paid for. -/
def Pays (K : Conduct) (credit : Nat) (made : α → Nat) (x : LexM α) : Prop :=
  ∀ ⦃m r n⦄, m.Follows K → x m = some (r, n) → m.Paid K (worth made r - credit) n

namespace Pays

variable {credit : Nat} {made : α → Nat}

theorem of_immediate {x : LexM α} (hx : Immediate x) (credit : Nat) :
    Pays K credit (fun _ => credit) x := by
  intro m r n hm h
  obtain ⟨r', n', h', hconsumes⟩ := hx m
  rw [h] at h'
  cases h'
  apply (Machine.Paid.of_consumes hm hconsumes).mono
  cases r with
  | ok a => exact Nat.le_of_eq (Nat.sub_self credit)
  | error e => exact Nat.sub_le 0 credit

theorem pure {a : α} (h : made a ≤ credit) : Pays K credit made (Pure.pure a) := by
  intro m r n hm hr
  cases hr
  exact (Machine.Paid.refl hm).mono (Nat.le_of_eq (Nat.sub_eq_zero_of_le h))

theorem throw (e : LexError) : Pays K credit made (throw e : LexM α) := by
  intro m r n hm hr
  cases hr
  exact (Machine.Paid.refl hm).mono (Nat.sub_le 0 credit)

/-- What the first part makes is the credit of the second. -/
theorem bind {more : β → Nat} {x : LexM α} {f : α → LexM β} (hx : Pays K credit made x)
    (hf : ∀ a, Pays K (made a) more (f a)) : Pays K credit more (x >>= f) := by
  intro m r n hm h
  rcases bind_eq_some_iff.1 h with ⟨a, k, ha, hr⟩ | ⟨e, he, rfl⟩
  · have hfirst := hx hm ha
    apply (hfirst.trans (hf a hfirst.follows hr)).mono
    show _ ≤ made a - credit + (worth more r - made a)
    omega
  · exact (hx hm he).mono (Nat.le_refl _)

theorem attempt {x : LexM α} (hx : Pays K credit made x) :
    Pays K credit (worth made) (attempt x) := by
  intro m r n hm h
  obtain ⟨_, hk, rfl⟩ := exists_of_attempt h
  exact hx hm hk

/-- What is made may be given away. -/
theorem free {x : LexM α} (hx : Pays K 0 made x) : Pays K 0 (fun _ => 0) x := by
  intro m r n hm h
  apply (hx hm h).mono
  cases r <;> exact Nat.zero_le _

/-- What goes on from the lexer may count on its handlers. -/
theorem lexer_bind {f : Lexer → LexM α}
    (hf : ∀ l : Lexer, (∀ entry ∈ l.registry.entries, K.known entry.2) → Pays K credit made (f l)) :
    Pays K credit made (lexer >>= f) := by
  intro m r n hm h
  rw [bind_of_ok (lexer_apply m)] at h
  exact hf m.lexer hm hm h

theorem pass_bind {f : Pass → LexM α} (hf : ∀ p, Pays K credit made (f p)) :
    Pays K credit made (LexM.pass >>= f) := by
  intro m r n hm h
  rw [bind_of_ok (pass_apply m)] at h
  exact hf m.lexer.pass hm h

/-- A match is paid for with its text, which is not empty. -/
theorem scan (pattern : Pattern) (kind : String) : Pays K 0 made? (scan pattern kind) := by
  intro m r n hm h
  rcases hv : Segmentation.verdict pattern m.lexer.pass.rest with e | _ | groups
  · rw [scan_of_error kind hv] at h
    cases h
    exact .refl hm
  · rw [scan_of_none kind hv] at h
    cases h
    exact .refl hm
  · obtain ⟨hfull, after, hafter⟩ := Segmentation.of_verdict_eq_some hv
    obtain ⟨k, hscan, hlexer⟩ := scan_of_match kind hv hafter.symm
    cases hscan.symm.trans h
    exact .of_past hm hafter.symm hlexer (List.length_pos_of_ne_nil hfull)

/-- A character is paid for with itself. -/
theorem characterToken {m n : Machine} {r : Except LexError Token} {c : Char} {rest : Text}
    (hm : m.Follows K) (hrest : m.lexer.pass.rest = c :: rest)
    (h : characterToken c m = some (r, n)) : m.Paid K 1 n := by
  obtain ⟨k, htoken, hlexer⟩ := characterToken_apply hrest
  cases htoken.symm.trans h
  exact .of_past hm hrest hlexer (Nat.le_refl 1)

section Drivers

variable {call : Handler → LexM (Option Token)} (hcall : ∀ h, K.known h → Pays K 0 made? (call h))

include hcall

theorem runHandler (kind : String) {handler : Handler} (hknown : K.known handler) :
    Pays K 0 made? (runHandler call kind handler) := by
  apply pass_bind
  intro p
  apply (hcall handler hknown).bind
  intro t?
  cases t? with
  | none => exact pure (Nat.le_refl 0)
  | some t =>
    exact (of_immediate (.locationFrom p.position) 1).bind fun _ => pure (Nat.le_refl 1)

theorem handle (kind : String) : Pays K 0 made? (handle call kind) := by
  apply lexer_bind
  intro l hl
  rcases hget : l.registry.get kind with e | handler
  · exact throw e
  · obtain ⟨entry, hentry, rfl⟩ := Registry.mem_of_get hget
    exact runHandler hcall kind (hl entry hentry)

theorem callKind (kind : String) : Pays K 0 made? (callKind call kind) := by
  apply lexer_bind
  intro l hl
  rcases hget : l.registry.get kind with e | handler
  · exact throw e
  · obtain ⟨entry, hentry, rfl⟩ := Registry.mem_of_get hget
    exact hcall entry.2 (hl entry hentry)

theorem tryHandlers (count i : Nat) : Pays K 0 made? (tryHandlers call count i) := by
  induction count generalizing i with
  | zero => exact pure (Nat.le_refl 0)
  | succ count ih =>
    apply lexer_bind
    intro l hl
    rcases hentry : l.registry.entryAt? i with _ | ⟨kind, handler⟩
    · exact pure (Nat.le_refl 0)
    · apply (runHandler hcall kind (hl _ (List.mem_of_getElem? hentry))).bind
      intro t?
      cases t? with
      | none => exact ih (i + 1)
      | some t => exact pure (Nat.le_refl 1)

theorem derive : Pays K 0 made? (derive call) := by
  intro m r n hm h
  rcases hrest : m.lexer.pass.rest with _ | ⟨c, rest⟩
  · rw [derive_of_rest_nil hrest] at h
    cases h
    exact .refl hm
  · cases hmode : m.lexer.options.mode with
    | character =>
      rw [derive_of_character hrest hmode] at h
      rcases bind_eq_some_iff.1 h with ⟨t, k, hk, he⟩ | ⟨e, he, rfl⟩
      · cases he
        exact characterToken hm hrest hk
      · exact (characterToken hm hrest he).mono (Nat.zero_le 1)
    | token =>
      rw [derive_of_token (by simp [hrest]) hmode] at h
      have hlast : ∀ t? : Option Token, Pays K (made? t?) made? (match t? with
          | some t => Pure.pure (some t)
          | none => do
            let p ← LexM.pass
            if p.rest.isEmpty then return none else LexM.throw p.unmatched) := by
        intro t?
        cases t? with
        | some t => exact pure (Nat.le_refl 1)
        | none =>
          apply pass_bind
          intro p
          split
          · exact pure (Nat.le_refl 0)
          · exact throw _
      exact (tryHandlers hcall _ 0).bind hlast hm h

theorem advance : Pays K 0 made? (advance call) := by
  apply (derive hcall).attempt.bind
  intro outcome
  rcases outcome with e | t?
  · exact (of_immediate (.report e) 0).bind fun _ => pure (Nat.le_refl 0)
  · exact pure (Nat.le_refl _)

end Drivers

end Pays

end LexM

open LexM (Pays)
open Move (taken)

/-- Moves lead from one machine to another: the tokens of their advances are paid for with input,
and with the tokens that waited they are what was taken or waits. -/
structure Machine.Covers (K : Conduct) (m : Machine) (moves : List Move) (n : Machine) : Prop where
  follows : n.Follows K
  rest : n.lexer.pass.rest <:+ m.lexer.pass.rest
  drawn : ((Move.draws moves).flatMap Draw.tokens).length + n.lexer.pass.rest.length ≤
    m.lexer.pass.rest.length
  conserved : taken moves ++ n.queue = m.queue ++ (Move.draws moves).flatMap Draw.tokens

namespace Machine.Covers

variable {m n k : Machine} {a b moves : List Move} {call : Handler → LexM (Option Token)}

theorem refl (hm : m.Follows K) : m.Covers K [] m :=
  ⟨hm, List.suffix_refl _, by simp, by simp⟩

theorem trans (h : m.Covers K a n) (h' : n.Covers K b k) : m.Covers K (a ++ b) k where
  follows := h'.follows
  rest := h'.rest.trans h.rest
  drawn := by
    have hfirst := h.drawn
    have hsecond := h'.drawn
    rw [Move.draws_append, List.flatMap_append, List.length_append]
    omega
  conserved := Move.conserved_append h.conserved h'.conserved

/-- What is taken was due. -/
theorem due (h : m.Covers K moves n) : n.due + (taken moves).length ≤ m.due := by
  have hdrawn := h.drawn
  have hconserved := congrArg List.length h.conserved
  rw [List.length_append, List.length_append] at hconserved
  unfold Machine.due
  omega

theorem paid (h : m.Covers K moves n) : m.Paid K 0 n := by
  have hdue := h.due
  obtain ⟨taken, hrest⟩ := h.rest
  exact ⟨h.follows, by omega, taken, hrest.symm, Nat.zero_le _⟩

theorem of_consumes (hm : m.Follows K) (h : m.Consumes n) : m.Covers K [] n := by
  refine ⟨(Paid.of_consumes hm h).follows, h.rest, ?_, ?_⟩
  · rw [Move.draws_nil, List.flatMap_nil, List.length_nil, Nat.zero_add]
    exact h.rest.length_le
  · rw [Move.taken_nil, Move.draws_nil, List.flatMap_nil, List.nil_append, List.append_nil, h.queue]

/-- Each advance while no token waits pays for its tokens, those that its handlers left included. -/
theorem of_draws (hadvance : Pays K 0 made? (LexM.advance call)) {count : Nat} {ds : List Draw}
    (hm : m.Follows K) (h : LexM.draws call count m = some (ds, n)) :
    n.Follows K ∧ n.lexer.pass.rest <:+ m.lexer.pass.rest ∧
      (ds.flatMap Draw.tokens).length + n.lexer.pass.rest.length ≤ m.lexer.pass.rest.length := by
  induction count generalizing m ds with
  | zero =>
    cases h
    exact ⟨hm, List.suffix_refl _, Nat.le_of_eq (Nat.zero_add _)⟩
  | succ count ih =>
    simp only [LexM.draws, Option.bind_eq_bind, Option.bind_eq_some_iff, Prod.exists] at h
    obtain ⟨d, k, hd, ds', k', hds, he⟩ := h
    obtain ⟨rfl, rfl⟩ := Prod.mk.inj (Option.some.inj he)
    obtain ⟨⟨r, p⟩, ha, he⟩ := Option.map_eq_some_iff.1 hd
    obtain ⟨rfl, rfl⟩ := Prod.mk.inj he
    obtain ⟨hp, hdue, gone, hrest, -⟩ := hadvance (m := m.aside) hm ha
    obtain ⟨hn, hsuffix, hdrawn⟩ := ih (m := p.aside) hp hds
    have htokens : (Draw.tokens ⟨r, p.queue⟩).length + p.lexer.pass.rest.length ≤
        m.lexer.pass.rest.length := by
      have hdue' : p.queue.length + p.lexer.pass.rest.length + LexM.worth made? r ≤
          0 + m.lexer.pass.rest.length := hdue
      rw [Nat.zero_add] at hdue'
      unfold Draw.tokens
      rcases r with e | _ | t
      · exact hdue'
      · exact hdue'
      · simp only [LexM.worth, made?, List.length_cons] at hdue' ⊢
        omega
    refine ⟨hn, hsuffix.trans ⟨gone, hrest.symm⟩, ?_⟩
    rw [List.flatMap_cons, List.length_append]
    have hdrawn' : (ds'.flatMap Draw.tokens).length + k'.lexer.pass.rest.length ≤
        p.lexer.pass.rest.length := hdrawn
    omega

theorem of_balanced (hadvance : Pays K 0 made? (LexM.advance call)) (hm : m.Follows K)
    (h : Balanced call m moves n) : m.Covers K moves n := by
  obtain ⟨hn, hrest, hdrawn⟩ := of_draws (m := m.aside) hadvance hm h.reached
  exact ⟨hn, hrest, hdrawn, h.conserved⟩

end Machine.Covers

def Traced.Covered (K : Conduct) {α : Type} (x : Traced α) : Prop :=
  ∀ ⦃m r moves n⦄, m.Follows K → x m = some (r, moves, n) → m.Covers K moves n

namespace Traced.Covered

variable {α β : Type} {call : Handler → LexM (Option Token)}

theorem lift {x : LexM α} (hx : LexM.Immediate x) : Covered K (lift x) := by
  intro m r moves n hm h
  obtain ⟨hend, rfl⟩ := lift_eq_some_iff.1 h
  obtain ⟨r', n', hend', hconsumes⟩ := hx m
  cases hend.symm.trans hend'
  exact .of_consumes hm hconsumes

theorem pure (a : α) : Covered K (Pure.pure a) := by
  intro m r moves n hm h
  cases h
  exact .refl hm

theorem bind {x : Traced α} {f : α → Traced β} (hx : Covered K x) (hf : ∀ a, Covered K (f a)) :
    Covered K (x >>= f) := by
  intro m r moves n hm h
  rcases bind_eq_some_iff.1 h with ⟨a, first, k, more, ha, hr, rfl⟩ | ⟨e, he, -⟩
  · have hfirst := hx hm ha
    exact hfirst.trans (hf a hfirst.follows hr)
  · exact hx hm he

variable (hadvance : Pays K 0 made? (LexM.advance call))

include hadvance

theorem of_balances {x : Traced α} (hx : x.Balances call) : Covered K x := by
  intro m r moves n hm h
  exact .of_balanced hadvance hm (hx h)

theorem pushAll (bound : Nat) : Covered K (pushAll call bound) := by
  induction bound with
  | zero =>
    intro m r moves n _ h
    cases h
  | succ bound ih =>
    apply (of_balances hadvance .next).bind
    intro t?
    cases t? with
    | none => exact pure ()
    | some t => exact (lift (.push t)).bind fun _ => ih

theorem lex (bound : Nat) : Covered K (lex call bound) := by
  apply (pushAll hadvance bound).bind
  intro _
  apply (lift .pass).bind
  intro p
  have hlast : Covered K (Traced.lift LexM.pass >>= fun p => Pure.pure p.tokens.toList) :=
    (lift .pass).bind fun _ => pure _
  split
  · exact (lift .finish).bind fun _ => hlast
  · exact hlast

end Traced.Covered

namespace LexM.Pays

variable {call : Handler → LexM (Option Token)}

/-- What a computation takes in moves is paid for. -/
theorem of_covered {α : Type} {x : Traced α} (hx : x.Covered K) :
    Pays K 0 (fun _ => 0) x.value := by
  intro m r n hm h
  obtain ⟨moves, hmoves⟩ := Traced.exists_of_value h
  apply (hx hm hmoves).paid.mono
  cases r <;> exact Nat.zero_le _

theorem dequeue : Pays K 0 (fun _ => 0) dequeue := by
  intro m r n hm h
  rw [dequeue_apply] at h
  cases h
  refine ⟨hm, ?_, [], rfl, Nat.le_refl 0⟩
  show m.queue.tail.length + m.lexer.pass.rest.length ≤
    m.queue.length + m.lexer.pass.rest.length
  rw [List.length_tail]
  omega

variable (hcall : ∀ h, K.known h → Pays K 0 made? (call h))

include hcall

/-- What draws on the stream of tokens is paid for. -/
theorem stream (bound : Nat) (c : StreamCall) :
    Pays K 0 (fun _ => 0) (c.request.serve call bound) := by
  rw [← StreamCall.value_traced]
  exact of_covered (.of_balances (advance hcall) (c.balances_traced call bound))

theorem next : Pays K 0 (fun _ => 0) (next call) := stream hcall 0 .next

theorem lookahead (n : Nat) : Pays K 0 (fun _ => 0) (lookahead call n) :=
  stream hcall 0 (.lookahead n)

theorem pushAll (bound : Nat) : Pays K 0 (fun _ => 0) (pushAll call bound) := by
  have h := of_covered (.pushAll (advance hcall) bound)
  rwa [Traced.value_pushAll] at h

theorem lex (bound : Nat) : Pays K 0 (fun _ => 0) (lex call bound) := by
  have h := of_covered (.lex (advance hcall) bound)
  rwa [Traced.value_lex] at h

/-- A token less is due after the next one. -/
theorem due_next {m n : Machine} {t : Token} (hm : m.Follows K)
    (h : LexM.next call m = some (.ok (some t), n)) : n.due < m.due := by
  rw [← Traced.value_next] at h
  obtain ⟨moves, hmoves⟩ := Traced.exists_of_value h
  have hdue := (Machine.Covers.of_balanced (advance hcall) hm (Traced.Balances.next hmoves)).due
  rwa [Traced.taken_next hmoves] at hdue

/-- Whatever is asked for, but to start over and to bring a token, is paid for. -/
theorem serve (bound : Nat) {r : Request} (frugal : r.Frugal) :
    Pays K 0 (fun _ => 0) (r.serve call bound) := by
  cases r with
  | view => exact of_immediate .view 0
  | hooks => exact of_immediate .hooks 0
  | consume bytes => exact of_immediate (.consume bytes) 0
  | consumeAs bytes value => exact of_immediate (.consumeAs bytes value) 0
  | move value bytes => exact of_immediate (.move value bytes) 0
  | matchPattern pattern => exact of_immediate (.matchPattern pattern) 0
  | scan pattern kind => exact of_immediate (.scan pattern kind) 0
  | skipSpaces => exact of_immediate .skipSpaces 0
  | token kind value => exact of_immediate (.token kind value) 0
  | tokenFrom kind captures => exact of_immediate (.tokenFrom kind captures) 0
  | handle kind => exact (handle hcall kind).free
  | call kind => exact (callKind hcall kind).free
  | advance => exact (advance hcall).free
  | next => exact next hcall
  | lex => exact lex hcall bound
  | dequeue => exact dequeue
  | lookahead n => exact lookahead hcall n
  | skip n => exact stream hcall bound (.skip n)
  | skipWhile accepts => exact stream hcall bound (.skipWhile accepts)
  | skipTo kind => exact stream hcall bound (.skipTo kind)
  | push t => exact of_immediate (.push t) 0
  | pushStack t => exact of_immediate (.pushStack t) 0
  | popStack => exact of_immediate .popStack 0
  | append value => exact of_immediate (.append value) 0
  | finish => exact of_immediate .finish 0
  | report e => exact of_immediate (.report e) 0
  | note label answer => exact of_immediate (.record _) 0
  | _ => exact frugal.elim

end LexM.Pays

/-- A program of the conduct pays for what it does, by induction on what it does next. -/
theorem Program.pays_run {α : Type} {call : Handler → LexM (Option Token)}
    (hK : ∀ {r}, K.allowed r → r.Frugal) (hcall : ∀ h, K.known h → Pays K 0 made? (call h))
    (bound : Nat) {p : Program Handler α} (hp : p.Asks K.allowed K.known) :
    Pays K 0 (fun _ => 0) (p.run call bound) := by
  induction p with
  | done a => exact .pure (Nat.le_refl 0)
  | fail e => exact .throw e
  | ask request next ih =>
    obtain ⟨allowed, hnext⟩ := hp
    apply (Pays.serve hcall bound (hK allowed)).attempt.free.bind
    exact fun reply => ih reply (hnext reply)
  | set kind handler next ih =>
    obtain ⟨known, hnext⟩ := hp
    have hregister : Pays K 0 (fun _ => 0) (LexM.register kind handler) := by
      intro m r n hm h
      cases h
      exact ⟨hm.register kind known, Nat.le_refl _, [], rfl, Nat.le_refl 0⟩
    exact hregister.bind fun _ => ih hnext
  | fork input body next ih =>
    have hfork : Pays K 0 (fun _ => 0) (LexM.onFork input (call body)) := by
      intro m r n hm h
      obtain ⟨_, _, -, rfl, rfl⟩ := LexM.exists_of_onFork h
      exact ⟨hm, Nat.le_refl _, [], rfl, Nat.le_refl 0⟩
    exact hfork.bind fun outcome => ih outcome.1 outcome.2 (hp outcome.1 outcome.2)

/-- What a captured pattern asks for where it matches is asked by its transform. -/
theorem Program.asks_transform {allowed : Request → Prop} {known : Handler → Prop} {kind : String}
    {p : Pattern} {transform : Token → Program Handler (Option Token)}
    (h : (Handler.ofPatternWith kind p transform).program.Asks allowed known) (t : Token) :
    (transform t).Asks allowed known := h.2 (.ok (some t))

/-- The handler of a pattern makes a token for the text of a match, whatever its transform does. -/
theorem Handler.pays_call (hK : K.Capturing) (depth : Nat) {h : Handler} (hknown : K.known h) :
    Pays K 0 made? (Handler.call depth h) := by
  induction depth generalizing h with
  | zero =>
    intro m r n _ hr
    cases hr
  | succ depth ih =>
    rcases hK.captures hknown with ⟨kind, p, rfl⟩ | ⟨kind, p, transform, rfl⟩
    · rw [Handler.call_ofPattern]
      exact .scan p kind
    · rw [Handler.call_ofPatternWith]
      apply (Pays.scan p kind).bind
      rintro (_ | t)
      · exact .pure (Nat.le_refl 0)
      · have htransform := Program.pays_run hK.frugal (fun _ => ih) depth
          (Program.asks_transform (K.asks _ hknown) t)
        -- The match has paid for the token, if the transform makes one.
        intro m r n hm hr
        apply (htransform hm hr).mono
        rcases r with e | _ | t' <;> exact Nat.le_refl 0

end ModularLexer
