import LinkedSchema.Documents.Reference
import Mathlib.Tactic.Common

/-!
# Computations that load documents

A computation that loads documents runs on a store and leaves a larger one. `Store.Extends` says how
a store may have grown: it keeps its documents, and what is new was read from the files. A
computation is `Steady` when it only lets the store grow in this way and its outcome is the same on
every store grown so. Then the files and the store it starts with fix its outcome, and the parts
of a steady computation can all be looked at on that one store (`outcome_bind`).

Loading a document and following a reference are steady, and steadiness passes through sequences, so
that every walk over schemas is steady too.
-/

namespace LinkedSchema

variable {α β : Type} {files : Texts} {s s' s'' : Store}

/-- A sequence succeeds when its parts do. -/
theorem bind_eq_ok {ε : Type} {x : Except ε α} {f : α → Except ε β} {b : β} :
    (x >>= f) = .ok b ↔ ∃ a, x = .ok a ∧ f a = .ok b := by
  cases x <;> simp [bind, Except.bind]

/-- A sequence fails where the first of its parts does. -/
theorem bind_eq_error {ε : Type} {x : Except ε α} {f : α → Except ε β} {e : ε} :
    (x >>= f) = .error e ↔ x = .error e ∨ ∃ a, x = .ok a ∧ f a = .error e := by
  cases x <;> simp [bind, Except.bind]

/-- A result is mapped when there is one. -/
theorem map_eq_ok {ε α β : Type} {f : α → β} {x : Except ε α} {b : β} :
    x.map f = .ok b ↔ ∃ a, x = .ok a ∧ f a = b := by
  cases x <;> simp [Except.map]

/-- A mapped result fails as it does itself. -/
theorem map_eq_error {ε α β : Type} {f : α → β} {x : Except ε α} {e : ε} :
    x.map f = .error e ↔ x = .error e := by
  cases x <;> simp [Except.map]

namespace Loading

/-- What a computation returns on a store. -/
def outcome (x : Loading α) (s : Store) : Except SchemaError α := (x.runOn s).1

/-- The store that a computation leaves. -/
def after (x : Loading α) (s : Store) : Store := (x.runOn s).2

/-- The run of a computation is its outcome and the store it leaves. -/
theorem runOn_eq (x : Loading α) (s : Store) : x.runOn s = (x.outcome s, x.after s) := rfl

/-- A sequence goes on after a success, on the store that the first part leaves. -/
theorem runOn_bind (x : Loading α) (f : α → Loading β) (s : Store) :
    Loading.runOn (x >>= f) s = match x.runOn s with
      | (.ok a, t) => (f a).runOn t
      | (.error e, t) => (.error e, t) := by
  simp only [runOn, bind, ExceptT.bind, ExceptT.mk, StateT.bind]
  cases x s with
  | mk r t => cases r <;> rfl

/-- The store can be looked at. -/
theorem runOn_get (s : Store) : Loading.runOn get s = (.ok s, s) := rfl

/-- A value that needs no computation is the outcome. -/
@[simp]
theorem outcome_pure (a : α) : outcome (pure a) s = .ok a := rfl

/-- A value that needs no computation leaves the store as it is. -/
@[simp]
theorem after_pure (a : α) : after (pure a) s = s := rfl

/-- An error is the outcome. -/
@[simp]
theorem outcome_throw (e : SchemaError) : outcome (throw e : Loading α) s = .error e := rfl

/-- A result that does not depend on the store is the outcome. -/
@[simp]
theorem outcome_lift (r : Except SchemaError α) : outcome (ExceptT.mk (pure r)) s = r := rfl

/-- A result that does not depend on the store leaves it as it is. -/
@[simp]
theorem after_lift (r : Except SchemaError α) : after (ExceptT.mk (pure r)) s = s := rfl

/-- After a success the outcome of a sequence is that of its second part. -/
theorem outcome_bind_ok {x : Loading α} {f : α → Loading β} {a : α} (h : x.outcome s = .ok a) :
    outcome (x >>= f) s = (f a).outcome (x.after s) := by
  have hx : x.runOn s = (.ok a, x.after s) := by rw [runOn_eq, h]
  rw [outcome, runOn_bind, hx]
  rfl

/-- After a success the store of a sequence is that of its second part. -/
theorem after_bind_ok {x : Loading α} {f : α → Loading β} {a : α} (h : x.outcome s = .ok a) :
    after (x >>= f) s = (f a).after (x.after s) := by
  have hx : x.runOn s = (.ok a, x.after s) := by rw [runOn_eq, h]
  rw [after, runOn_bind, hx]
  rfl

/-- A failure is the outcome of the whole sequence. -/
theorem outcome_bind_error {x : Loading α} {f : α → Loading β} {e : SchemaError}
    (h : x.outcome s = .error e) : outcome (x >>= f) s = .error e := by
  have hx : x.runOn s = (.error e, x.after s) := by rw [runOn_eq, h]
  rw [outcome, runOn_bind, hx]

/-- A failure leaves the store of the whole sequence. -/
theorem after_bind_error {x : Loading α} {f : α → Loading β} {e : SchemaError}
    (h : x.outcome s = .error e) : after (x >>= f) s = x.after s := by
  have hx : x.runOn s = (.error e, x.after s) := by rw [runOn_eq, h]
  rw [after, runOn_bind, hx]

end Loading

/-! ## Stores that have grown -/

variable {l : Location} {r : Option String} {v : Json}

/-- A value is read when there is a text that holds it. -/
theorem Texts.readValue_eq_ok :
    files.readValue l r = .ok v ↔
      ∃ text, files.read l = .ok text ∧ Document.parse l text = .ok v := by
  unfold Texts.readValue
  cases files.read l with
  | error reason => cases reason <;> simp
  | ok text => cases h : Document.parse l text <;> simp [h]

/-- Reading succeeds whoever asks. -/
theorem Texts.readValue_ok (h : files.readValue l r = .ok v) (q : Option String) :
    files.readValue l q = .ok v :=
  readValue_eq_ok.mpr (readValue_eq_ok.mp h)

/-- A store has grown by documents that were read from the files. -/
structure Store.Extends (files : Texts) (s s' : Store) : Prop where
  /-- What was held is held. -/
  keeps : ∀ {l d}, s.find? l = some d → s'.find? l = some d
  /-- What is new was read. -/
  adds : ∀ {l d}, s.find? l = none → s'.find? l = some d →
    files.readValue l none = .ok d.root

namespace Store

/-- A document is held under its own location. -/
theorem location_of_find? {l : Location} {d : Document} (h : s.find? l = some d) :
    d.location = l := by
  simpa using List.find?_some h

/-- A document that is held is one of the documents of the store. -/
theorem mem_of_find? {l : Location} {d : Document} (h : s.find? l = some d) :
    d ∈ s.documents := List.mem_of_find?_eq_some h

/-- A store with one more document holds this one at its location. -/
theorem find?_append {d : Document} (h : s.find? d.location = none) (l : Location) :
    find? ⟨s.documents ++ [d]⟩ l = if d.location = l then some d else s.find? l := by
  unfold find? at h ⊢
  rw [List.find?_append, List.find?_singleton]
  by_cases hl : d.location = l
  · subst hl
    simp [h]
  · simp [hl]

/-- Every store extends itself. -/
theorem Extends.refl (files : Texts) (s : Store) : Extends files s s where
  keeps h := h
  adds h h' := by rw [h] at h'; cases h'

/-- A store may grow several times. -/
theorem Extends.trans (h : Extends files s s') (h' : Extends files s' s'') :
    Extends files s s'' where
  keeps hl := h'.keeps (h.keeps hl)
  adds {l d} hl hd := by
    cases hm : s'.find? l with
    | none => exact h'.adds hm hd
    | some c =>
      rw [h'.keeps hm] at hd
      cases hd
      exact h.adds hl hm

/-- A store grows by a document that was read. -/
theorem Extends.add {l : Location} {v : Json} (hl : s.find? l = none)
    (hv : files.readValue l none = .ok v) : Extends files s ⟨s.documents ++ [⟨l, v⟩]⟩ := by
  have hfind : ∀ m, find? ⟨s.documents ++ [⟨l, v⟩]⟩ m = if l = m then some ⟨l, v⟩ else s.find? m :=
    find?_append (d := ⟨l, v⟩) hl
  constructor
  · intro m d hm
    have hne : l ≠ m := by
      rintro rfl
      rw [hl] at hm
      cases hm
    rw [hfind, if_neg hne]
    exact hm
  · intro m d hm hd
    rw [hfind] at hd
    split at hd
    · next h =>
      cases hd
      rw [← h]
      exact hv
    · rw [hm] at hd
      cases hd

end Store

/-! ## Steady computations -/

/-- A computation only lets the store grow, and its outcome is the same on a store that has
grown. -/
structure Loading.Steady (files : Texts) (x : Loading α) : Prop where
  /-- The store grows. -/
  grows : ∀ s, Store.Extends files s (x.after s)
  /-- The outcome stays. -/
  stays : ∀ {s s'}, Store.Extends files s s' → x.outcome s' = x.outcome s

namespace Loading

/-- A value that needs no computation is steady. -/
theorem Steady.pure (a : α) : Steady files (Pure.pure a) :=
  ⟨fun s => Store.Extends.refl files s, fun _ => rfl⟩

/-- A failure is steady. -/
theorem Steady.throw (e : SchemaError) : Steady files (MonadExcept.throw e : Loading α) :=
  ⟨fun s => Store.Extends.refl files s, fun _ => rfl⟩

/-- A result that does not depend on the store is steady. -/
theorem Steady.lift (r : Except SchemaError α) : Steady files (ExceptT.mk (Pure.pure r)) :=
  ⟨fun s => Store.Extends.refl files s, fun _ => rfl⟩

/-- The second part of a steady sequence may be looked at on the store with which the sequence
starts. -/
theorem outcome_bind {x : Loading α} {f : α → Loading β} (hx : Steady files x)
    (hf : ∀ a, Steady files (f a)) (s : Store) :
    outcome (x >>= f) s = x.outcome s >>= fun a => (f a).outcome s := by
  cases h : x.outcome s with
  | error e => exact outcome_bind_error h
  | ok a =>
    rw [outcome_bind_ok h, (hf a).stays (hx.grows s)]
    rfl

/-- A sequence of steady computations is steady. -/
theorem Steady.bind {x : Loading α} {f : α → Loading β} (hx : Steady files x)
    (hf : ∀ a, Steady files (f a)) : Steady files (x >>= f) where
  grows s := by
    cases h : x.outcome s with
    | error e =>
      rw [after_bind_error h]
      exact hx.grows s
    | ok a =>
      rw [after_bind_ok h]
      exact (hx.grows s).trans ((hf a).grows _)
  stays {s s'} hs := by
    rw [outcome_bind hx hf, outcome_bind hx hf, hx.stays hs]
    cases x.outcome s with
    | error e => rfl
    | ok a => exact (hf a).stays hs

/-- A sequence of steady computations succeeds when all its parts do. -/
theorem outcome_bind_eq_ok {x : Loading α} {f : α → Loading β} (hx : Steady files x)
    (hf : ∀ a, Steady files (f a)) {b : β} :
    outcome (x >>= f) s = .ok b ↔ ∃ a, x.outcome s = .ok a ∧ (f a).outcome s = .ok b := by
  rw [outcome_bind hx hf]
  exact bind_eq_ok

/-- A sequence of steady computations fails where the first of its parts does. -/
theorem outcome_bind_eq_error {x : Loading α} {f : α → Loading β} (hx : Steady files x)
    (hf : ∀ a, Steady files (f a)) {e : SchemaError} :
    outcome (x >>= f) s = .error e ↔
      x.outcome s = .error e ∨ ∃ a, x.outcome s = .ok a ∧ (f a).outcome s = .error e := by
  rw [outcome_bind hx hf]
  exact bind_eq_error

end Loading

/-! ## Loading and following references -/

/-- The document of a location: the one that is held, or else the one that is read. -/
def documentAt (files : Texts) (s : Store) (l : Location) (r : Option String) :
    Except SchemaError Document :=
  match s.find? l with
  | some d => .ok d
  | none => (files.readValue l r).map (⟨l, ·⟩)

/-- Loading returns the document of the location. -/
theorem outcome_loadDocument (files : Texts) (l : Location) (r : Option String) (s : Store) :
    (loadDocument files l r).outcome s = documentAt files s l r := by
  unfold Loading.outcome Loading.runOn loadDocument Loading.ofStep documentAt
  cases hl : s.find? l with
  | some d => simp only [hl]
  | none =>
    cases files.readValue l r with
    | error e => simp [hl, Except.map]
    | ok v => simp [hl, Except.map, Store.add]

/-- Loading leaves the store with the document, if there is one. -/
theorem after_loadDocument (files : Texts) (l : Location) (r : Option String) (s : Store) :
    (loadDocument files l r).after s = match documentAt files s l r with
      | .ok d => (s.add d).2
      | .error _ => s := by
  unfold Loading.after Loading.runOn loadDocument Loading.ofStep documentAt
  cases hl : s.find? l with
  | some d =>
    have hd := Store.location_of_find? hl
    subst hd
    simp [hl, Store.add]
  | none =>
    cases files.readValue l r with
    | error e => simp [hl, Except.map]
    | ok v => simp [hl, Except.map, Store.add]

/-- The document of a location is held, or there is none and its value is read. -/
theorem documentAt_eq_ok {l : Location} {r : Option String} {d : Document} :
    documentAt files s l r = .ok d ↔
      s.find? l = some d ∨
        s.find? l = none ∧ ∃ v, files.readValue l r = .ok v ∧ d = ⟨l, v⟩ := by
  unfold documentAt
  cases s.find? l with
  | some c => simp
  | none => cases files.readValue l r <;> simp [Except.map, eq_comm]

/-- The document of a location is named by the location. -/
theorem location_of_documentAt {l : Location} {r : Option String} {d : Document}
    (h : documentAt files s l r = .ok d) : d.location = l := by
  rcases documentAt_eq_ok.mp h with hl | ⟨-, v, -, rfl⟩
  · exact Store.location_of_find? hl
  · rfl

/-- The document of a location is the same whoever asks. -/
theorem documentAt_ok {l : Location} {r : Option String} {d : Document}
    (h : documentAt files s l r = .ok d) (q : Option String) : documentAt files s l q = .ok d := by
  rw [documentAt_eq_ok] at h ⊢
  exact h.imp_right fun ⟨hl, v, hv, he⟩ => ⟨hl, v, Texts.readValue_ok hv q, he⟩

/-- The document of a location stays when the store grows. -/
theorem documentAt_extends (h : Store.Extends files s s') (l : Location) (r : Option String) :
    documentAt files s' l r = documentAt files s l r := by
  unfold documentAt
  cases hl : s.find? l with
  | some d => rw [h.keeps hl]
  | none =>
    cases hl' : s'.find? l with
    | none => rfl
    | some d =>
      have hd := Store.location_of_find? hl'
      subst hd
      rw [Texts.readValue_ok (h.adds hl hl') r]
      rfl

/-- The store grows by the document of a location. -/
theorem extends_add_documentAt {l : Location} {r : Option String} {d : Document}
    (h : documentAt files s l r = .ok d) : Store.Extends files s (s.add d).2 := by
  have hd := location_of_documentAt h
  subst hd
  rcases documentAt_eq_ok.mp (documentAt_ok h none) with hl | ⟨hl, v, hv, he⟩
  · simp only [Store.add, hl]
    exact Store.Extends.refl files s
  · simp only [Store.add, hl]
    rw [he] at hv ⊢
    exact Store.Extends.add hl hv

/-- The store that has got the document of a location holds it. -/
theorem find?_add_documentAt {l : Location} {r : Option String} {d : Document}
    (h : documentAt files s l r = .ok d) : (s.add d).2.find? l = some d := by
  have hd := location_of_documentAt h
  subst hd
  cases hl : s.find? d.location with
  | some c =>
    simp only [documentAt, hl] at h
    cases h
    simp only [Store.add, hl]
  | none =>
    simp only [Store.find?] at hl
    simp [Store.add, Store.find?, List.find?_append, hl]

/-- Loading is steady. -/
theorem Loading.Steady.loadDocument (files : Texts) (l : Location) (r : Option String) :
    Steady files (loadDocument files l r) where
  grows s := by
    rw [after_loadDocument]
    cases h : documentAt files s l r with
    | error e => exact Store.Extends.refl files s
    | ok d => exact extends_add_documentAt h
  stays {s s'} hs := by
    rw [outcome_loadDocument, outcome_loadDocument]
    exact documentAt_extends hs l r

/-- Following a reference is steady. -/
theorem Loading.Steady.resolveReference (files : Texts) (reference : String)
    (context : Context) : Steady files (resolveReference files reference context) := by
  unfold LinkedSchema.resolveReference
  dsimp only
  split
  · exact (Steady.lift _).bind fun _ => Steady.pure _
  · split
    · exact Steady.throw _
    · exact (Steady.loadDocument files _ _).bind fun _ =>
        (Steady.lift _).bind fun _ => Steady.pure _

end LinkedSchema
