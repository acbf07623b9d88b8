/-! # Parcels

A parcel hands back what was written to it, in order. A program that reads one parcel and
writes another is a tree, with a run on any implementation of parcels and a run on lists of
items. What holds of the run on lists holds of the run on every lawful implementation.
-/

namespace TelephonySms.Ipc

/-! ## Items -/

inductive ItemKind where
  | interfaceToken
  | bool
  | int8
  | uint8
  | int16
  | int32
  | uint32
  | int64
  | string
  | string16
  | uint8Vector
  | rawData
  | remoteObject
  deriving DecidableEq, Repr

/-- The values of a kind, with remote objects in `ρ`. -/
abbrev ItemKind.Value (ρ : Type) : ItemKind → Type
  | interfaceToken => List UInt16
  | bool => Bool
  | int8 => Int8
  | uint8 => UInt8
  | int16 => Int16
  | int32 => Int32
  | uint32 => UInt32
  | int64 => Int64
  | string => List UInt8
  | string16 => List UInt16
  | uint8Vector => List UInt8
  | rawData => List UInt8
  | remoteObject => ρ

structure Item (ρ : Type) where
  kind : ItemKind
  value : kind.Value ρ

/-! ## Implementations -/

structure ParcelOps (ρ : Type) where
  Parcel : Type
  new : Parcel
  write : Item ρ → Parcel → Parcel
  /-- none where there is nothing of the kind to be read -/
  read : (kind : ItemKind) → Parcel → Option (kind.Value ρ) × Parcel

/-- An implementation keeps the items in order. An item that is not a remote object stays
where it is when a remote object is to be read. -/
structure ParcelOps.Lawful {ρ : Type} (ops : ParcelOps ρ) where
  Holds : ops.Parcel → List (Item ρ) → Prop
  new : Holds ops.new []
  write : ∀ {parcel items} (item : Item ρ), Holds parcel items →
    Holds (ops.write item parcel) (items ++ [item])
  read : ∀ {parcel items} (item : Item ρ), Holds parcel (item :: items) →
    (ops.read item.kind parcel).1 = some item.value ∧ Holds (ops.read item.kind parcel).2 items
  read_end : ∀ {parcel} (kind : ItemKind), Holds parcel [] →
    (ops.read kind parcel).1 = none ∧ Holds (ops.read kind parcel).2 []
  read_other : ∀ {parcel items} (item : Item ρ), item.kind ≠ .remoteObject →
    Holds parcel (item :: items) → (ops.read .remoteObject parcel).1 = none ∧
      Holds (ops.read .remoteObject parcel).2 (item :: items)

/-- A parcel with such items. -/
def ParcelOps.filled {ρ : Type} (ops : ParcelOps ρ) (items : List (Item ρ)) : ops.Parcel :=
  items.foldl (fun parcel item => ops.write item parcel) ops.new

theorem ParcelOps.Lawful.filled {ρ : Type} {ops : ParcelOps ρ} (lawful : ops.Lawful)
    (items : List (Item ρ)) : lawful.Holds (ops.filled items) items := by
  have hfold : ∀ (parcel : ops.Parcel) (there : List (Item ρ)), lawful.Holds parcel there →
      lawful.Holds (items.foldl (fun parcel item => ops.write item parcel) parcel)
        (there ++ items) := by
    induction items with
    | nil =>
        intro parcel there h
        rw [List.append_nil]
        exact h
    | cons item items ih =>
        intro parcel there h
        rw [List.append_cons]
        exact ih _ _ (lawful.write item h)
  exact hfold ops.new [] lawful.new

/-- Lists of items. -/
def listParcels (ρ : Type) : ParcelOps ρ where
  Parcel := List (Item ρ)
  new := []
  write item items := items ++ [item]
  read kind
    | [] => (none, [])
    | item :: items =>
        if h : item.kind = kind then (some (h ▸ item.value), items) else (none, item :: items)

def listParcels_lawful (ρ : Type) : (listParcels ρ).Lawful where
  Holds parcel items := parcel = items
  new := rfl
  write item h := congrArg (· ++ [item]) h
  read := by
    rintro _ items item rfl
    simp [listParcels]
  read_end := by
    rintro _ kind rfl
    exact ⟨rfl, rfl⟩
  read_other := by
    rintro _ items item hkind rfl
    simp [listParcels, hkind]

/-! ## Programs -/

/-- A program that reads and writes items and makes calls of `C`. -/
inductive Exchange (ρ : Type) (C : Type → Type) (α : Type) : Type 1 where
  | done (a : α)
  | read (kind : ItemKind) (next : Option (kind.Value ρ) → Exchange ρ C α)
  | write (item : Item ρ) (next : Exchange ρ C α)
  | call {β : Type} (c : C β) (next : β → Exchange ρ C α)

namespace Exchange

variable {ρ : Type} {C : Type → Type} {α β σ : Type}

def bind (p : Exchange ρ C α) (f : α → Exchange ρ C β) : Exchange ρ C β :=
  match p with
  | done a => f a
  | read kind next => read kind fun value => (next value).bind f
  | write item next => write item (next.bind f)
  | call c next => call c fun b => (next b).bind f

instance : Monad (Exchange ρ C) where
  pure := done
  bind := bind

/-- Everything that is called keeps a state. -/
abbrev Service (C : Type → Type) (σ : Type) : Type 1 := (β : Type) → C β → σ → β × σ

/-- The run on parcels: the result, what was written, and the state. -/
def onParcels (ops : ParcelOps ρ) (service : Service C σ) :
    Exchange ρ C α → ops.Parcel → ops.Parcel → σ → α × ops.Parcel × σ
  | done a, _, reply, s => (a, reply, s)
  | read kind next, data, reply, s =>
      (next (ops.read kind data).1).onParcels ops service (ops.read kind data).2 reply s
  | write item next, data, reply, s => next.onParcels ops service data (ops.write item reply) s
  | call c next, data, reply, s =>
      (next (service _ c s).1).onParcels ops service data reply (service _ c s).2

/-- The run on lists of items, none where an item is read as one of another kind. -/
def onItems (service : Service C σ) :
    Exchange ρ C α → List (Item ρ) → List (Item ρ) → σ → Option (α × List (Item ρ) × σ)
  | done a, _, reply, s => some (a, reply, s)
  | read _ next, [], reply, s => (next none).onItems service [] reply s
  | read kind next, item :: data, reply, s =>
      if h : item.kind = kind then
        (next (some (h ▸ item.value))).onItems service data reply s
      else if kind = .remoteObject then
        (next none).onItems service (item :: data) reply s
      else
        none
  | write item next, data, reply, s => next.onItems service data (reply ++ [item]) s
  | call c next, data, reply, s =>
      (next (service _ c s).1).onItems service data reply (service _ c s).2

/-- A run on lists that gets to its end is the run on every implementation. -/
theorem onParcels_of_onItems {ops : ParcelOps ρ} (lawful : ops.Lawful) {service : Service C σ}
    {p : Exchange ρ C α} {a : α} {data reply reply' : List (Item ρ)} {s s' : σ}
    {dataParcel replyParcel : ops.Parcel} (hdata : lawful.Holds dataParcel data)
    (hreply : lawful.Holds replyParcel reply)
    (hrun : p.onItems service data reply s = some (a, reply', s')) :
    ∃ parcel, p.onParcels ops service dataParcel replyParcel s = (a, parcel, s') ∧
      lawful.Holds parcel reply' := by
  induction p generalizing data reply s dataParcel replyParcel with
  | done b =>
      rw [onItems] at hrun
      cases hrun
      exact ⟨replyParcel, rfl, hreply⟩
  | read kind next ih =>
      cases data with
      | nil =>
          have hread := lawful.read_end kind hdata
          rw [onItems] at hrun
          rcases ih none hread.2 hreply hrun with ⟨parcel, hparcel, hholds⟩
          refine ⟨parcel, ?_, hholds⟩
          rw [onParcels, hread.1]
          exact hparcel
      | cons item data =>
          rw [onItems] at hrun
          split at hrun
          · rename_i hkind
            subst hkind
            have hread := lawful.read item hdata
            rcases ih _ hread.2 hreply hrun with ⟨parcel, hparcel, hholds⟩
            refine ⟨parcel, ?_, hholds⟩
            rw [onParcels, hread.1]
            exact hparcel
          · rename_i hkind
            split at hrun
            · rename_i hremote
              subst hremote
              have hread := lawful.read_other item hkind hdata
              rcases ih none hread.2 hreply hrun with ⟨parcel, hparcel, hholds⟩
              refine ⟨parcel, ?_, hholds⟩
              rw [onParcels, hread.1]
              exact hparcel
            · cases hrun
  | write item next ih =>
      rw [onItems] at hrun
      rcases ih hdata (lawful.write item hreply) hrun with ⟨parcel, hparcel, hholds⟩
      exact ⟨parcel, by rw [onParcels]; exact hparcel, hholds⟩
  | call c next ih =>
      rw [onItems] at hrun
      rcases ih _ hdata hreply hrun with ⟨parcel, hparcel, hholds⟩
      exact ⟨parcel, by rw [onParcels]; exact hparcel, hholds⟩

/-! ## Steps -/

/-- A read that finds nothing leaves the value that is there before it. -/
def readValue (kind : ItemKind) (value : kind.Value ρ) : Exchange ρ C (kind.Value ρ) :=
  read kind fun found => done (found.getD value)

def writeItem (kind : ItemKind) (value : kind.Value ρ) : Exchange ρ C Unit :=
  write ⟨kind, value⟩ (done ())

def callService (c : C α) : Exchange ρ C α := call c done

/-- The same program so many times, one after the other. -/
def times (p : Exchange ρ C α) : Nat → Exchange ρ C (List α)
  | 0 => pure []
  | n + 1 => do
      let a ← p
      let rest ← times p n
      pure (a :: rest)

def writeAll : List (Item ρ) → Exchange ρ C Unit
  | [] => pure ()
  | item :: items => do
      writeItem item.kind item.value
      writeAll items

variable {service : Service C σ} {data reply : List (Item ρ)} {s : σ}

@[simp] theorem onItems_pure (a : α) :
    (pure a : Exchange ρ C α).onItems service data reply s = some (a, reply, s) := rfl

@[simp] theorem onItems_readValue (kind : ItemKind) (value start : kind.Value ρ)
    (f : kind.Value ρ → Exchange ρ C α) :
    (readValue kind start >>= f).onItems service (⟨kind, value⟩ :: data) reply s =
      (f value).onItems service data reply s :=
  dif_pos rfl

@[simp] theorem onItems_readValue_end (kind : ItemKind) (start : kind.Value ρ)
    (f : kind.Value ρ → Exchange ρ C α) :
    (readValue kind start >>= f).onItems service [] reply s =
      (f start).onItems service [] reply s := rfl

@[simp] theorem onItems_read (kind : ItemKind) (value : kind.Value ρ)
    (f : Option (kind.Value ρ) → Exchange ρ C α) :
    (read kind f).onItems service (⟨kind, value⟩ :: data) reply s =
      (f (some value)).onItems service data reply s :=
  dif_pos rfl

@[simp] theorem onItems_writeItem (kind : ItemKind) (value : kind.Value ρ)
    (f : Unit → Exchange ρ C α) :
    (writeItem kind value >>= f).onItems service data reply s =
      (f ()).onItems service data (reply ++ [⟨kind, value⟩]) s := rfl

@[simp] theorem onItems_writeItem_last (kind : ItemKind) (value : kind.Value ρ) :
    (writeItem kind value : Exchange ρ C Unit).onItems service data reply s =
      some ((), reply ++ [⟨kind, value⟩], s) := rfl

@[simp] theorem onItems_callService (c : C β) (f : β → Exchange ρ C α) :
    (callService c >>= f).onItems service data reply s =
      (f (service β c s).1).onItems service data reply (service β c s).2 := rfl

theorem bind_assoc {γ : Type} (p : Exchange ρ C α) (f : α → Exchange ρ C β)
    (g : β → Exchange ρ C γ) : (p >>= f) >>= g = p >>= fun a => f a >>= g := by
  show (p.bind f).bind g = p.bind fun a => (f a).bind g
  induction p with
  | done a => rfl
  | read kind next ih =>
      simp only [bind]
      congr 1
      funext value
      exact ih value
  | write item next ih =>
      simp only [bind]
      rw [ih]
  | call c next ih =>
      simp only [bind]
      congr 1
      funext b
      exact ih b

@[simp] theorem onItems_writeAll (items : List (Item ρ)) :
    (writeAll items : Exchange ρ C Unit).onItems service data reply s =
      some ((), reply ++ items, s) := by
  induction items generalizing reply with
  | nil =>
      rw [List.append_nil]
      rfl
  | cons item items ih =>
      rw [writeAll, onItems_writeItem, ih, List.append_assoc]
      rfl

theorem onItems_then_pure (p : Exchange ρ C α) (b : β) :
    (p >>= fun _ => pure b).onItems service data reply s =
      (p.onItems service data reply s).map fun run => (b, run.2) := by
  show (p.bind fun _ => done b).onItems service data reply s = _
  induction p generalizing data reply s with
  | done a => rfl
  | read kind next ih =>
      cases data with
      | nil => exact ih none
      | cons item data =>
          simp only [bind, onItems]
          split
          · exact ih _
          · split
            · exact ih none
            · rfl
  | write item next ih => exact ih
  | call c next ih => exact ih _

/-- A program that takes the items of a value, whatever stands behind them. -/
structure Takes (p : Exchange ρ C α) (items : List (Item ρ)) (a : α) : Prop where
  run : ∀ {β σ : Type} (service : Service C σ) (f : α → Exchange ρ C β)
    (data reply : List (Item ρ)) (s : σ), (p >>= f).onItems service (items ++ data) reply s =
      (f a).onItems service data reply s

theorem Takes.pure (a : α) : (Pure.pure a : Exchange ρ C α).Takes [] a :=
  ⟨fun _ _ _ _ _ => rfl⟩

theorem Takes.bind {p : Exchange ρ C α} {f : α → Exchange ρ C β} {items items' : List (Item ρ)}
    {a : α} {b : β} (hp : p.Takes items a) (hf : (f a).Takes items' b) :
    (p >>= f).Takes (items ++ items') b := by
  constructor
  intro γ τ service g data reply s
  rw [bind_assoc, List.append_assoc, hp.run, hf.run]

theorem Takes.cons {p : Exchange ρ C α} {f : α → Exchange ρ C β} {item : Item ρ}
    {items : List (Item ρ)} {a : α} {b : β} (hp : p.Takes [item] a) (hf : (f a).Takes items b) :
    (p >>= f).Takes (item :: items) b :=
  hp.bind hf

theorem readValue_takes (kind : ItemKind) (start value : kind.Value ρ) :
    (readValue kind start : Exchange ρ C _).Takes [⟨kind, value⟩] value :=
  ⟨fun _ f _ _ _ => onItems_readValue kind value start f⟩

theorem times_takes {p : Exchange ρ C α} {items : α → List (Item ρ)}
    (h : ∀ a, p.Takes (items a) a) (as : List α) :
    (times p as.length).Takes (as.flatMap items) as := by
  induction as with
  | nil => exact Takes.pure []
  | cons a as ih =>
      rw [List.length_cons, times, List.flatMap_cons]
      apply (h a).bind
      rw [← List.append_nil (as.flatMap items)]
      exact ih.bind (Takes.pure (a :: as))

/-! ## Calls that are made

These hold of a run whatever the parcels are. -/

/-- Nothing is called, and what is returned is one of `Q`. -/
def Silent (Q : α → Prop) : Exchange ρ C α → Prop
  | done a => Q a
  | read _ next => ∀ value, (next value).Silent Q
  | write _ next => next.Silent Q
  | call _ _ => False

/-- At most one call is made, one of `P`. -/
def CallsOnce (P : ∀ {β : Type}, C β → Prop) : Exchange ρ C α → Prop
  | done _ => True
  | read _ next => ∀ value, (next value).CallsOnce P
  | write _ next => next.CallsOnce P
  | call c next => P c ∧ ∀ b, (next b).Silent fun _ => True

variable {P : ∀ {β : Type}, C β → Prop}

theorem Silent.bind {Q : α → Prop} {Q' : β → Prop} {p : Exchange ρ C α} {f : α → Exchange ρ C β}
    (hp : p.Silent Q) (hf : ∀ a, Q a → (f a).Silent Q') : (p >>= f).Silent Q' := by
  show (p.bind f).Silent Q'
  induction p with
  | done a => exact hf a hp
  | read kind next ih => exact fun value => ih value (hp value)
  | write item next ih => exact ih hp
  | call c next ih => exact hp.elim

theorem CallsOnce.of_silent {Q : α → Prop} {p : Exchange ρ C α} (hp : p.Silent Q) :
    p.CallsOnce P := by
  induction p with
  | done a => exact trivial
  | read kind next ih => exact fun value => ih value (hp value)
  | write item next ih => exact ih hp
  | call c next ih => exact hp.elim

theorem CallsOnce.bind {Q : α → Prop} {p : Exchange ρ C α} {f : α → Exchange ρ C β}
    (hp : p.Silent Q) (hf : ∀ a, Q a → (f a).CallsOnce P) : (p >>= f).CallsOnce P := by
  show (p.bind f).CallsOnce P
  induction p with
  | done a => exact hf a hp
  | read kind next ih => exact fun value => ih value (hp value)
  | write item next ih => exact ih hp
  | call c next ih => exact hp.elim

theorem CallsOnce.bind_silent {p : Exchange ρ C α} {f : α → Exchange ρ C β} (hp : p.CallsOnce P)
    (hf : ∀ a, (f a).Silent fun _ => True) : (p >>= f).CallsOnce P := by
  show (p.bind f).CallsOnce P
  induction p with
  | done a => exact CallsOnce.of_silent (hf a)
  | read kind next ih => exact fun value => ih value (hp value)
  | write item next ih => exact ih hp
  | call c next ih => exact ⟨hp.1, fun b => (hp.2 b).bind fun a _ => hf a⟩

theorem CallsOnce.call {c : C α} {f : α → Exchange ρ C β} (hc : P c)
    (hf : ∀ a, (f a).Silent fun _ => True) : (callService c >>= f).CallsOnce P :=
  ⟨hc, hf⟩

theorem readValue_silent (kind : ItemKind) (start : kind.Value ρ) :
    (readValue kind start : Exchange ρ C _).Silent fun _ => True :=
  fun _ => trivial

theorem times_silent {p : Exchange ρ C α} (hp : p.Silent fun _ => True) (n : Nat) :
    (times p n).Silent fun as => as.length = n := by
  induction n with
  | zero => rfl
  | succ n ih =>
      apply hp.bind
      intro a _
      apply ih.bind
      intro as has
      exact congrArg (· + 1) has

theorem writeAll_silent (items : List (Item ρ)) :
    (writeAll items : Exchange ρ C Unit).Silent fun _ => True := by
  induction items with
  | nil => exact trivial
  | cons item items ih => exact ih

theorem Silent.onParcels {Q : α → Prop} {p : Exchange ρ C α} (hp : p.Silent Q)
    (ops : ParcelOps ρ) (service : Service C σ) (data reply : ops.Parcel) (s : σ) :
    (p.onParcels ops service data reply s).2.2 = s := by
  induction p generalizing data reply with
  | done a => rfl
  | read kind next ih => exact ih _ (hp _) _ _
  | write item next ih => exact ih hp _ _
  | call c next ih => exact hp.elim

/-- The state is left as it is, or as one call of `P` leaves it. -/
theorem CallsOnce.onParcels {p : Exchange ρ C α} (hp : p.CallsOnce P) (ops : ParcelOps ρ)
    (service : Service C σ) (data reply : ops.Parcel) (s : σ) :
    (p.onParcels ops service data reply s).2.2 = s ∨
      ∃ (β : Type) (c : C β), P c ∧
        (p.onParcels ops service data reply s).2.2 = (service β c s).2 := by
  induction p generalizing data reply with
  | done a => exact .inl rfl
  | read kind next ih => exact ih _ (hp _) _ _
  | write item next ih => exact ih hp _ _
  | call c next ih => exact .inr ⟨_, c, hp.1, (hp.2 _).onParcels ops service data reply _⟩

end Exchange

end TelephonySms.Ipc
