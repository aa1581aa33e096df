import LinkedSchema.Proofs.Bound
import LinkedSchema.Proofs.Registered
import LinkedSchema.Proofs.Tracking
import LinkedSchema.Validation.Session

/-!
# A kept store and a fresh one

A validation that starts with the documents of a kept store, and reads all others from the files,
is run beside one that starts with a fresh store and reads texts in which the kept documents are
written as well. The kept store `Mirrors` the fresh one at every moment: it holds all that the fresh
one holds, what else it holds can be read by the other side, and what it does not hold is read alike
by both. Loading a document keeps this up, so both engines do (`Config.validateAt_tracks`).

The check of the reference graph counts on which side what stands, and gets different numbers of
levels. Neither side runs out of them, so the side with fewer levels tracks the other.
-/

namespace LinkedSchema

open Loading

variable {files files' : Texts} {kept : Location → Prop} {s t : Store}

/-- A store holds what another one holds, and else what the texts of the other side give at the
locations that it has kept; what it does not hold is read alike on both sides. -/
structure Store.Mirrors (files files' : Texts) (kept : Location → Prop) (s t : Store) : Prop where
  /-- What is not held is not held on the other side, and read alike. -/
  absent : ∀ {l}, s.find? l = none → t.find? l = none ∧ ¬kept l ∧ files'.read l = files.read l
  /-- What is held can be read on the other side, and is held there unless it was kept. -/
  held : ∀ {l d}, s.find? l = some d →
    files'.readValue l none = .ok d.root ∧ (kept l ∨ t.find? l = some d)
  /-- What is held on the other side is held. -/
  follows : ∀ {l d}, t.find? l = some d → s.find? l = some d

/-- Texts that are read alike give the same values. -/
theorem Texts.readValue_congr {l : Location} (h : files'.read l = files.read l)
    (r : Option String) : files'.readValue l r = files.readValue l r := by
  unfold Texts.readValue
  rw [h]

/-- A mirror may get a document that both sides read. -/
theorem Store.Mirrors.add {d : Document} (h : s.Mirrors files files' kept t)
    (hs : s.find? d.location = none) (hd : files'.readValue d.location none = .ok d.root) :
    Store.Mirrors files files' kept ⟨s.documents ++ [d]⟩ ⟨t.documents ++ [d]⟩ := by
  have ht := (h.absent hs).1
  constructor
  · intro l hl
    rw [find?_append hs] at hl
    split at hl
    · cases hl
    · next hne =>
      rw [find?_append ht, if_neg hne]
      exact h.absent hl
  · intro l c hl
    rw [find?_append hs] at hl
    rw [find?_append ht]
    split at hl
    · next he =>
      cases hl
      rw [if_pos he]
      exact ⟨he ▸ hd, .inr rfl⟩
    · next hne =>
      rw [if_neg hne]
      exact h.held hl
  · intro l c hl
    rw [find?_append ht] at hl
    rw [find?_append hs]
    split at hl
    · next he => rw [if_pos he, hl]
    · next hne =>
      rw [if_neg hne]
      exact h.follows hl

/-- A mirror stays one when the other side gets a document that it holds itself. -/
theorem Store.Mirrors.catchUp {d : Document} (h : s.Mirrors files files' kept t)
    (hs : s.find? d.location = some d) (ht : t.find? d.location = none) :
    s.Mirrors files files' kept ⟨t.documents ++ [d]⟩ := by
  constructor
  · intro l hl
    have hne : d.location ≠ l := by
      rintro rfl
      rw [hs] at hl
      cases hl
    rw [find?_append ht, if_neg hne]
    exact h.absent hl
  · intro l c hl
    obtain ⟨hread, hwhere⟩ := h.held hl
    rw [find?_append ht]
    split
    · next he =>
      rw [← he, hs] at hl
      exact ⟨hread, .inr hl⟩
    · exact ⟨hread, hwhere⟩
  · intro l c hl
    rw [find?_append ht] at hl
    split at hl
    · next he =>
      cases hl
      exact he ▸ hs
    · exact h.follows hl

/-- Loading a document keeps a mirror up. -/
theorem loadsAlike_mirrors (files files' : Texts) (kept : Location → Prop) :
    LoadsAlike (Store.Mirrors files files' kept) (fun _ => False) files files' := by
  intro l r s t h
  refine .inr ?_
  rw [outcome_loadDocument, outcome_loadDocument, after_loadDocument, after_loadDocument]
  cases hs : s.find? l with
  | some d =>
    -- The document is held here; on the other side it is held or read.
    have hl := Store.location_of_find? hs
    subst hl
    have hdocument : documentAt files s d.location r = .ok d := by rw [documentAt, hs]
    have hstore : (s.add d).2 = s := by rw [Store.add_of_find? hs]
    rw [hdocument]
    dsimp only
    rw [hstore]
    cases ht : t.find? d.location with
    | some c =>
      have hsame := h.follows ht
      rw [hs] at hsame
      cases hsame
      have hdocument' : documentAt files' t d.location r = .ok d := by rw [documentAt, ht]
      have hstore' : (t.add d).2 = t := by rw [Store.add_of_find? ht]
      rw [hdocument']
      dsimp only
      rw [hstore']
      exact ⟨rfl, h⟩
    | none =>
      have hread := Texts.readValue_ok (h.held hs).1 r
      have hdocument' : documentAt files' t d.location r = .ok d := by
        rw [documentAt, ht, hread]
        rfl
      have hstore' : (t.add d).2 = ⟨t.documents ++ [d]⟩ := by rw [Store.add, ht]
      rw [hdocument']
      dsimp only
      rw [hstore']
      exact ⟨rfl, h.catchUp hs ht⟩
  | none =>
    -- The document is held nowhere, and read alike.
    obtain ⟨ht, -, hread⟩ := h.absent hs
    have hvalue := Texts.readValue_congr hread r
    have hdocument : documentAt files s l r = (files.readValue l r).map (⟨l, ·⟩) := by
      rw [documentAt, hs]
    have hdocument' : documentAt files' t l r = (files.readValue l r).map (⟨l, ·⟩) := by
      rw [documentAt, ht, hvalue]
    rw [hdocument, hdocument']
    cases hv : files.readValue l r with
    | error e => exact ⟨rfl, h⟩
    | ok v =>
      have hstore : (s.add ⟨l, v⟩).2 = ⟨s.documents ++ [⟨l, v⟩]⟩ := by rw [Store.add, hs]
      have hstore' : (t.add ⟨l, v⟩).2 = ⟨t.documents ++ [⟨l, v⟩]⟩ := by rw [Store.add, ht]
      dsimp only [Except.map]
      rw [hstore, hstore']
      exact ⟨rfl, h.add hs (Texts.readValue_ok (hvalue.trans hv) none)⟩

/-! ## The check of the reference graph -/

namespace ReferenceGraph

variable {R : Store → Store → Prop} {limit : Nat}

/-- An error of running out of levels. -/
def IsDepth (e : SchemaError) : Prop := ∃ n place, e = .depthExceeded n place

/-- When the check has fewer levels on one side, and does not run out of them, it agrees with the
other side. -/
theorem check_agrees_of_le (hload : LoadsAlike R (fun _ => False) files files')
    {start : Document} (hR : R s t)
    (hle : levels (weight files s + start.root.size) limit ≤
      levels (weight files' t + start.root.size) limit)
    (hstops : ∀ n place, (check files start limit).outcome s ≠ .error (.depthExceeded n place)) :
    (check files' start limit).outcome t = (check files start limit).outcome s ∧
      R ((check files start limit).after s) ((check files' start limit).after t) := by
  have hload' : LoadsAlike R IsDepth files files' := fun l r => (hload l r).spare fun _ he => he.elim
  -- The only error that is spared is the one that does not occur.
  rcases check_tracks_of_le hload' chainsAlike_eq rfl (fun n place => ⟨n, place, rfl⟩) hR hle with
    ⟨e, ⟨n, place, rfl⟩, hfails⟩ | hsame
  · exact absurd hfails (hstops n place)
  · exact hsame

/-- The check of a schema at a normal location tracks the check on the other side. -/
theorem check_tracks (hload : LoadsAlike R (fun _ => False) files files') (hlisted : files.Listed)
    (hlisted' : files'.Listed) {start : Document} (hnormal : start.location.Normal) (limit : Nat) :
    Tracks R (fun _ => False) (check files start limit) (check files' start limit) := by
  intro s t hR
  have hstops := check_ne_depthExceeded hlisted s hnormal limit
  have hstops' := check_ne_depthExceeded hlisted' t hnormal limit
  -- The side with fewer levels tracks the other one.
  rcases Nat.le_total (levels (weight files s + start.root.size) limit)
    (levels (weight files' t + start.root.size) limit) with hle | hle
  · exact .inr (check_agrees_of_le hload hR hle hstops)
  · have hload' : LoadsAlike (fun t s => R s t) (fun _ => False) files' files :=
      fun l r => (hload l r).symm
    obtain ⟨hsame, hafter⟩ := check_agrees_of_le hload' hR hle hstops'
    exact .inr ⟨hsame.symm, hafter⟩

end ReferenceGraph

/-! ## The registry -/

namespace Draft7

variable {R : Store → Store → Prop}

/-- Mapping the result and replacing the failures keeps up tracking. -/
theorem guarded_tracks {α β : Type} {x y : Loading α} (h : Tracks R (fun _ => False) x y)
    (f : α → β) (fault : SchemaError) :
    Tracks R (fun _ => False) (tryCatch (ExceptT.map f x) fun _ => throw fault : Loading β)
      (tryCatch (ExceptT.map f y) fun _ => throw fault) := by
  intro s t hst
  rcases h hst with ⟨e, he, -⟩ | ⟨hsame, hafter⟩
  · exact he.elim
  · unfold outcome after
    rw [runOn_guarded, runOn_guarded, hsame]
    exact .inr ⟨rfl, hafter⟩

namespace Registry

/-- Reading a document tracks when loading does. -/
theorem fetch_tracks (hload : LoadsAlike R (fun _ => False) files files') (directory : Location)
    (fault : SchemaError) (u : Uri) :
    Tracks R (fun _ => False) (fetch files directory fault u) (fetch files' directory fault u) := by
  unfold fetch
  split
  · exact .throw _
  · exact guarded_tracks (hload _ _) _ _

variable {fetch fetch' : Uri → Loading Json} {fault : SchemaError}

/-- Adding documents tracks when reading them does. -/
theorem extend_tracks (h : ∀ u, Tracks R (fun _ => False) (fetch u) (fetch' u)) :
    ∀ named r, Tracks R (fun _ => False) (extend fetch named r) (extend fetch' named r) := by
  intro named
  induction named with
  | nil => exact fun _ => .pure _
  | cons p rest ih =>
    intro r
    unfold extend
    split
    · exact ih r
    · exact (h p.1).bind fun root _ => (ih _).bind fun _ _ => .pure _

/-- Adding all documents tracks when reading them does. -/
theorem complete_tracks (h : ∀ u, Tracks R (fun _ => False) (fetch u) (fetch' u)) :
    ∀ rounds sources r, Tracks R (fun _ => False) (complete fetch fault rounds sources r)
      (complete fetch' fault rounds sources r) := by
  intro rounds
  induction rounds with
  | zero =>
    intro sources r
    cases sources <;> exact .pure _
  | succ rounds ih =>
    intro sources r
    cases sources with
    | nil => exact .pure _
    | cons source rest =>
      unfold complete
      split
      · exact .throw _
      · exact (extend_tracks h _ _).bind fun _ _ => ih _ _

end Registry

/-- Validation by draft 7 of a schema at a normal location tracks when loading does. -/
theorem validate_tracks (hload : LoadsAlike R (fun _ => False) files files')
    (hlisted : files.Listed) (hlisted' : files'.Listed) {schema : Document}
    (hnormal : schema.location.Normal) (maxRefChain : Nat) (v : Json) :
    Tracks R (fun _ => False) (validate files maxRefChain schema v)
      (validate files' maxRefChain schema v) := by
  unfold validate validateBy
  refine (ReferenceGraph.check_tracks hload hlisted hlisted' hnormal maxRefChain).bind fun _ _ => ?_
  dsimp only
  split
  · exact .throw _
  · refine Tracks.bind ?_ fun registry _ => ?_
    · exact Registry.complete_tracks (Registry.fetch_tracks hload _ _) _ _ _
    · split
      · split
        · exact .throw _
        · exact .pure _
      · exact .throw _

end Draft7

/-! ## Validation -/

/-- Validation by either engine of a schema at a normal location tracks when loading does. -/
theorem Config.validate_tracks {R : Store → Store → Prop} (config : Config)
    (hload : LoadsAlike R (fun _ => False) files files') (hlisted : files.Listed)
    (hlisted' : files'.Listed) {schema : Document} (hnormal : schema.location.Normal) (v : Json) :
    Tracks R (fun _ => False) (config.validate files schema v) (config.validate files' schema v) := by
  unfold Config.validate
  split
  · exact Draft7.validate_tracks hload hlisted hlisted' hnormal _ _
  · exact Structural.walk_tracks hload rfl chainsAlike_eq (Nat.le_refl _)
      (.inr ⟨rfl, rfl⟩) rfl

/-- Validation against the schema at a normal location tracks when loading does. -/
theorem Config.validateAt_tracks {R : Store → Store → Prop} (config : Config)
    (hload : LoadsAlike R (fun _ => False) files files') (hlisted : files.Listed)
    (hlisted' : files'.Listed) {schema : Location} (hnormal : schema.Normal)
    (v : Except SchemaError Json) :
    Tracks R (fun _ => False) (config.validateAt files schema v)
      (config.validateAt files' schema v) := by
  refine (hload schema none).bind fun d hd => (Tracks.lift v).bind fun w _ => ?_
  -- The document that was loaded is named by the normal location.
  have hl : d.location = schema := by
    obtain ⟨s, -, -, hd⟩ := hd
    rw [outcome_loadDocument] at hd
    exact location_of_documentAt hd
  exact config.validate_tracks hload hlisted hlisted' (hl ▸ hnormal) w

end LinkedSchema
