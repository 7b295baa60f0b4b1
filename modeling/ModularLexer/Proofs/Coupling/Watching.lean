import ModularLexer.Proofs.Coupling.Programs
import ModularLexer.Proofs.Stream.Completion

/-!
Observers of tokens, scans and pushes only watch. Whichever of them are installed, programs and
handlers that do not look for them get the same answers, report the same errors and leave the lexer
in the same state after each request.
-/
namespace ModularLexer

open Watched (Coupled)

/-- What is in the journal whoever watches: errors that were taken over, and notes. -/
def Machine.kept (m : Machine) : List Event := m.journal.toList.filter (·.observer.isNone)

namespace Machine

variable {m k : Machine} {e : Event}

theorem kept_record (he : e.observer = none) (m : Machine) : (m.record e).kept = m.kept ++ [e] := by
  simp [kept, record, he]

/-- What an observer other than that of errors is told is not kept. -/
theorem kept_told {installed : Hooks → Bool} (he : e.observer = some installed) (m : Machine) :
    (m.told installed e).kept = m.kept := by
  unfold told
  split
  · simp [kept, he]
  · rfl

/-- The errors that were reported are among what is kept. -/
theorem reported_kept (l : Lexer) (m : Machine) : reported ⟨l, m.kept.toArray⟩ = m.reported := by
  unfold reported kept
  rw [List.filterMap_filter]
  apply List.filterMap_congr
  intro e _
  cases e <;> rfl

theorem reported_eq_of_kept (h : k.kept = m.kept) : k.reported = m.reported := by
  rw [← reported_kept m.lexer k, h, reported_kept]

/-- Machines that differ at most in the observers of tokens, scans and pushes and in what these were
told. -/
structure Alike (m k : Machine) : Prop where
  pass : k.lexer.pass = m.lexer.pass
  registry : k.lexer.registry = m.lexer.registry
  mode : k.lexer.options.mode = m.lexer.options.mode
  source : k.lexer.options.source = m.lexer.options.source
  onError : k.lexer.options.hooks.onError = m.lexer.options.hooks.onError
  kept : k.kept = m.kept

end Machine

inductive Sight.Alike : Sight → Sight → Prop
  | station {m k : Machine} (r? : Option Request) :
      m.Alike k → Alike (.station m r?) (.station k r?)
  | answer {m k : Machine} (r : Request) (reply : Except LexError r.Reply) :
      m.Alike k → Alike (.answer m r reply) (.answer k r reply)
  | derived (t : Token) : Alike (.derived t) (.derived t)
  | forked : Alike .forked .forked
  | joined : Alike .joined .joined

namespace Conduct

variable {α : Type} {K : Conduct}

/-- Machines alike whose handlers are of a conduct. Where handlers may look for the observers, these
are the same too. -/
structure Alike (K : Conduct) (m k : Machine) : Prop extends m.Alike k where
  follows : m.Follows K
  hooks : K.allowed .hooks → k.lexer.options.hooks = m.lexer.options.hooks

/-- Only the lexers and what is kept of the journals matter. -/
theorem Alike.of_lexer_eq {m k n l : Machine} (h : K.Alike m k) (hn : n.lexer = m.lexer)
    (hl : l.lexer = k.lexer) (hkept : l.kept = n.kept) : K.Alike n l := by
  obtain ⟨lexer, journal⟩ := n
  obtain ⟨lexer', journal'⟩ := l
  obtain rfl : lexer = m.lexer := hn
  obtain rfl : lexer' = k.lexer := hl
  exact { h with kept := hkept }

theorem Alike.report {m k : Machine} (h : K.Alike m k) (e : LexError) :
    Option.Rel (fun x y => y.1 = x.1 ∧ K.Alike x.2 y.2) (LexM.report e m) (LexM.report e k) := by
  cases hm : m.lexer.options.hooks.onError with
  | false =>
    have hk : k.lexer.options.hooks.onError = false := by rw [h.onError, hm]
    rw [LexM.report_apply hm, LexM.report_apply hk]
    exact .some ⟨rfl, h⟩
  | true =>
    have hk : k.lexer.options.hooks.onError = true := by rw [h.onError, hm]
    have hkept : (k.record (.error e)).kept = (m.record (.error e)).kept := by
      rw [Machine.kept_record rfl, Machine.kept_record rfl, h.kept]
    rw [LexM.report_of_observed hm, LexM.report_of_observed hk]
    exact .some ⟨rfl, h.of_lexer_eq rfl rfl hkept⟩

/-- Machines alike stay so whatever they both do. -/
theorem twins (K : Conduct) : Twins K K.Alike Sight.Alike where
  follows h := h.follows
  pass h := h.pass
  registry h := h.registry
  mode h := h.mode
  source h := h.source
  withPass p h := { h with pass := rfl }
  register {m k} kind handler hknown h := by
    have hregistry : (k.register kind handler).lexer.registry =
        (m.register kind handler).lexer.registry := by
      show k.lexer.registry.set kind handler = m.lexer.registry.set kind handler
      rw [h.registry]
    exact { h with registry := hregistry, follows := h.follows.register kind hknown }
  told {m k e installed} he h := by
    have hkept : (k.told installed e).kept = (m.told installed e).kept := by
      rw [Machine.kept_told he, Machine.kept_told he, h.kept]
    exact h.of_lexer_eq (Machine.lexer_told m installed e) (Machine.lexer_told k installed e) hkept
  note {m k} label answer h := by
    have hkept : (k.record (.note label answer)).kept = (m.record (.note label answer)).kept := by
      rw [Machine.kept_record rfl, Machine.kept_record rfl, h.kept]
    exact h.of_lexer_eq rfl rfl hkept
  hooks hallowed h := h.hooks hallowed
  report e _ _ h := h.report e
  station r? h := .station r? h.toAlike
  answer r reply h := .answer r reply h.toAlike
  derived t := .derived t
  forked := .forked
  joined := .joined

/-- Forks are not observed, so they are alike even for handlers that look for observers. -/
theorem forks (K : Conduct) : Twins.Forks K.Alike Conduct.all.Alike where
  fork {m k} input h := by
    have hlexer : k.lexer.fork input = m.lexer.fork input := by
      rw [Lexer.fork, Lexer.fork, Options.fork, Options.fork, h.registry, h.mode, h.source]
    refine ⟨⟨?_, ?_, ?_, ?_, ?_, h.kept⟩, fun _ _ => trivial, fun _ => ?_⟩ <;> rw [hlexer]
  back h hforked := { h with kept := hforked.kept }

/-- Whichever observers of tokens, scans and pushes are installed on a lexer, a program whose
handlers do not look for them takes the same steps with the same answers, and ends alike. -/
theorem sees_alike (K : Conduct) (hunseen : ¬ K.allowed .hooks) (bound : Nat)
    {p : Program Handler α} (hp : p.Asks K.allowed K.known) {m k : Machine} (hm : m.Follows K)
    (halike : m.Alike k) :
    List.Forall₂ Sight.Alike (p.watch bound m).1 (p.watch bound k).1 ∧
      Option.Rel (fun x y => y.1 = x.1 ∧ x.2.Alike y.2 ∧ y.2.reported = x.2.reported)
        (p.exec bound m) (p.exec bound k) := by
  have hwatch : Twins.Same K.Alike Sight.Alike (p.watch bound) :=
    K.twins.watch Conduct.all.twins K.forks Conduct.all.forks bound hp
  have hmk : K.Alike m k := ⟨halike, hm, fun hallowed => absurd hallowed hunseen⟩
  obtain ⟨hsights, hends⟩ := hwatch hmk
  refine ⟨hsights, ?_⟩
  rw [← Program.value_watch]
  unfold Watched.value
  generalize (p.watch bound m).2 = ended at hends ⊢
  generalize (p.watch bound k).2 = ended' at hends ⊢
  cases hends with
  | none => exact .none
  | some h =>
    obtain ⟨hresult, hend⟩ := h
    rw [Twins.outcome_id] at hresult
    exact .some ⟨hresult, hend.toAlike, Machine.reported_eq_of_kept hend.kept⟩

def lookingAhead : Conduct where
  allowed r := r ≠ .hooks
  known h := ∃ kind c, h = .ofPatternWith kind (.letter c) fun t => do
    let _ ← Program.request (.lookahead 1)
    return some t
  asks := by
    rintro _ ⟨kind, c, rfl⟩
    apply Program.Asks.ofPatternWith (by simp)
    intro t
    exact .bind (.request (by simp)) fun _ => trivial

/-- Two such letters before input that they do not recognise. Errors are observed, and all else is
or is not. -/
def ahead (watched : Bool) : Machine :=
  let letter (c : Char) : Handler := .ofPatternWith "letter" (.letter c) fun t => do
    let _ ← Program.request (.lookahead 1)
    return some t
  ⟨⟨.start "ab!".toList, ⟨[("a", letter 'a'), ("b", letter 'b')]⟩,
    ⟨.token, none, ⟨watched, watched, watched, true⟩⟩⟩, #[]⟩

/-- The observers are told of the tokens, and nothing else changes. -/
theorem sees_alike_letters :
    ¬ lookingAhead.allowed .hooks ∧
      (Program.request .lex).Asks lookingAhead.allowed lookingAhead.known ∧
      (ahead false).Follows lookingAhead ∧ (ahead false).Alike (ahead true) ∧
      List.Forall₂ Sight.Alike ((Program.request .lex).watch 5 (ahead false)).1
        ((Program.request .lex).watch 5 (ahead true)).1 ∧
      ∃ ts n k, (Program.request .lex).exec 5 (ahead false) = some (.ok ts, n) ∧
        (Program.request .lex).exec 5 (ahead true) = some (.ok ts, k) ∧ n.Alike k ∧
        k.reported = n.reported ∧ n.reported.length = 2 ∧ n.journal.size = 2 ∧
        k.journal.size = 8 := by
  have hunseen : ¬ lookingAhead.allowed .hooks := by simp [lookingAhead]
  have hasks : (Program.request .lex).Asks lookingAhead.allowed lookingAhead.known :=
    .request (by simp [lookingAhead])
  have hfollows : (ahead false).Follows lookingAhead := by
    intro entry hentry
    rcases List.mem_pair.1 hentry with rfl | rfl
    · exact ⟨"letter", 'a', rfl⟩
    · exact ⟨"letter", 'b', rfl⟩
  have halike : (ahead false).Alike (ahead true) := ⟨rfl, rfl, rfl, rfl, rfl, rfl⟩
  have hplain : LexM.shown ((Program.request .lex).exec 5) (ahead false) (·.length)
      (fun n => (n.reported.length, n.journal.size)) = some (some 2, 2, 2) := by decide +kernel
  have hwatched : LexM.shown ((Program.request .lex).exec 5) (ahead true) (·.length)
      (·.journal.size) = some (some 2, 8) := by decide +kernel
  obtain ⟨ts, n, hn, -, hsizes⟩ := LexM.exists_of_shown hplain
  obtain ⟨us, k, hk, -, hsize⟩ := LexM.exists_of_shown hwatched
  obtain ⟨hsights, hends⟩ := sees_alike lookingAhead hunseen 5 hasks hfollows halike
  rw [hn, hk] at hends
  obtain ⟨hsame, hend, hreported⟩ : Except.ok us = .ok ts ∧ n.Alike k ∧ k.reported = n.reported :=
    by cases hends with
      | some h => exact h
  obtain rfl : us = ts := Except.ok.inj hsame
  obtain ⟨hlength, hjournal⟩ := Prod.mk.inj hsizes
  exact ⟨hunseen, hasks, hfollows, halike, hsights, us, n, k, hn, hk, hend, hreported, hlength,
    hjournal, hsize⟩

end Conduct

end ModularLexer
