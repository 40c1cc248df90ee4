import Evergreen.Freshness
import Evergreen.Policy
import Evergreen.Text.Blank

/-!
# Requests

A request names a cached resource: its key, its lifetimes, its mode and its failure policy.
Who loads it is known by the request's `family`: a request and its copies are one family, they
share their loader and the mark that says when the resource was last refreshed. A new request
is a family of its own, also if the key is the same.

Requests are made from drafts, and a draft is refused if its key is blank, its lifetimes do
not fit together or its policy asks for a stale value that cannot exist
(`Draft.build_eq_ok_iff`).
-/

namespace Evergreen

/-- A description of a cached resource. -/
structure Request where
  key : Key
  hard : Nat
  soft : Nat
  mode : Mode
  policy : Policy
  /-- Shared by copies: the loader and the refresh mark are the family's. -/
  family : Nat
  deriving DecidableEq, Repr

/-- What a request must satisfy. -/
structure Request.WellFormed (r : Request) : Prop where
  key_ne_blank : Text.isBlank r.key = false
  min_le_hard : minHardTtl ≤ r.hard
  soft_le_hard : r.soft ≤ r.hard
  policy_ok : r.policy.check = .ok ()

/-- Whether two requests are copies of one another. -/
def Request.sameAs (r s : Request) : Bool := r.family == s.family

/-- A request being put together, not yet checked. -/
structure Draft where
  key : Key
  hard : Nat := 60 * Clock.second
  soft : Nat := 60 * Clock.second
  mode : Mode := .block
  policy : Policy := {}

/-- The rule for keys. -/
def checkKey (k : Key) : Except ConfigFault Unit :=
  if Text.isBlank k then .error .blankKey else .ok ()

namespace Draft

/-- The rules for a draft: first the key, then the lifetimes, then the policy. -/
def check (d : Draft) : Except ConfigFault Unit := do
  checkKey d.key
  checkTtls d.hard d.soft
  d.policy.check

/-- The request of a draft that passes, as the family given. -/
def build (d : Draft) (family : Nat) : Except ConfigFault Request := do
  d.check
  return { d with family }

def inspect (d : Draft) : String :=
  Text.partialRecord "CacheRequestBuilder" [
    ("key", Text.quoted d.key),
    ("hard_ttl", Text.elapsed d.hard),
    ("soft_ttl", Text.elapsed d.soft),
    ("mode", d.mode.inspect)]

end Draft

/-- A request as a diagnostic text, with the family's last refresh. -/
def Request.inspect (r : Request) (lastRefresh : Option Nat) : String :=
  let mark := match lastRefresh with
    | none => "None"
    | some t => Text.wrapped "Some" (Text.elapsed t)
  Text.partialRecord "CacheRequest" [
    ("key", Text.quoted r.key),
    ("hard_ttl", Text.elapsed r.hard),
    ("soft_ttl", Text.elapsed r.soft),
    ("mode", r.mode.inspect),
    ("last_refresh", mark)]

/-- Whether a request wants a refresh at `now`: its family was never refreshed, or longer ago
than the soft lifetime. -/
def Request.due (r : Request) (lastRefresh : Option Nat) (now : Nat) : Bool :=
  match lastRefresh with
  | none => true
  | some t => r.soft < now - t

/-! ## A draft as it is written down -/

/-- Where a policy comes from: a whole document, cells that replace the default's, or the
default itself. -/
inductive PolicySource where
  | whole (d : Document)
  | cells (d : Document)
  | default

namespace PolicySource

/-- The policy, unless its document cannot be read. -/
def resolve? : PolicySource → Option Policy
  | whole d => Policy.ofDocument? d
  | cells (.fields xs) => Policy.override {} (Policy.cells.map (Document.field? xs))
  | cells _ => none
  | default => some {}

end PolicySource

/-- A draft whose mode and policy are still documents. -/
structure DraftForm where
  key : Key
  hard : Option Nat := none
  soft : Option Nat := none
  mode : Option Document := none
  policy : PolicySource := .default

/-- The mode a document names. -/
def Mode.ofDocument? (d : Document) : Option Mode := d.choice?.bind ofWord?

/-- The draft of a form, unless a document of it cannot be read. -/
def DraftForm.draft? (f : DraftForm) : Option Draft := do
  let mode ← Document.orElse .block Mode.ofDocument? f.mode
  let policy ← f.policy.resolve?
  let plain : Draft := { key := f.key }
  return { plain with
    hard := f.hard.getD plain.hard, soft := f.soft.getD plain.soft, mode, policy }

/-! ## What passes -/

/-- A key is accepted unless it is blank. -/
theorem checkKey_eq_ok_iff {k : Key} : checkKey k = .ok () ↔ Text.isBlank k = false := by
  unfold checkKey
  cases Text.isBlank k <;> simp

/-- A draft makes a request iff the request would be well-formed. -/
theorem Draft.build_eq_ok_iff {d : Draft} {family : Nat} {r : Request} :
    d.build family = .ok r ↔ r = { d with family } ∧ r.WellFormed := by
  have hk := @checkKey_eq_ok_iff d.key
  have ht := @checkTtls_eq_ok_iff d.hard d.soft
  unfold Draft.build Draft.check
  constructor
  · intro h
    cases hk' : checkKey d.key with
    | error e => simp [hk', bind, Except.bind] at h
    | ok u =>
      cases ht' : checkTtls d.hard d.soft with
      | error e => simp [hk', ht', bind, Except.bind] at h
      | ok u =>
        cases hp : d.policy.check with
        | error e => simp [hk', ht', hp, bind, Except.bind] at h
        | ok u =>
          simp only [hk', ht', hp, bind, Except.bind, pure, Except.pure,
            Except.ok.injEq] at h
          subst h
          exact ⟨rfl, hk.1 hk', (ht.1 ht').1, (ht.1 ht').2, hp⟩
  · rintro ⟨rfl, h⟩
    have h₁ := hk.2 h.key_ne_blank
    have h₂ := ht.2 ⟨h.min_le_hard, h.soft_le_hard⟩
    have h₃ : d.policy.check = .ok () := h.policy_ok
    simp [h₁, h₂, h₃, bind, Except.bind, pure, Except.pure]

end Evergreen
