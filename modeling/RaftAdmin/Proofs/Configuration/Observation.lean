import RaftAdmin.Config.Typed
import RaftAdmin.Proofs.Configuration.Families
import RaftAdmin.Proofs.Configuration.History

/-!
# Reads go unnoticed

Reading a configuration makes its registry remember keys. No other call can tell, except one that
lists the known keys, as long as every key of a family that is asked for further is one that its
name finds. With an empty service id it is none, and then a name becomes a valid reference because
somebody asked for its key.

## The model

A run is a list of steps. Each is a call, and some are further reads, which a shorter run does not
have. The replies of a run are those to the other calls, but for the calls that list the keys. A
read that does not come to an end has the error `endless` for a reply, and the run goes on. Nothing
comes after such a read in truth, so what is said of further reads is about those that end.

## What is proved

* `Alike.reply` — configurations with the same values and views reply alike.
* `Alike.after`, `Alike.afterRead` — they stay alike when the same call is made to both, and when a
  read is made to one.
* **`replies_further`** — further reads leave the replies of a run.
* `noticed_of_unknown`, `exists_noticed_read` — a name that nothing finds is found after a read for
  the key of a family has made this name, as one with an empty service id does.
-/

namespace RaftAdmin.Configuration

/-! ### Calls -/

/-- As what the resolved value of a key is read. -/
inductive Getter where
  /-- As it is. -/
  | text
  /-- As a 32-bit integer. -/
  | int
  /-- As a 64-bit integer. -/
  | long
  /-- As a double-precision number. -/
  | double
  /-- As a truth value. -/
  | bool
  /-- As a log format. -/
  | logFormat
  /-- As the parts between the occurrences of a delimiter. -/
  | list (delimiter : String)
  /-- As a span of time. -/
  | duration

/-- What a value is read as. -/
def Getter.Result : Getter → Type
  | .text => String
  | .int => Int
  | .long => Int
  | .double => Binary64
  | .bool => Bool
  | .logFormat => LogFormat
  | .list _ => List String
  | .duration => Nat

/-- Reads a key. -/
def Getter.read (c : Configuration) (k : PropertyKey) : (g : Getter) → Except ConfigError g.Result
  | .text => c.get k
  | .int => c.getInt k
  | .long => c.getLong k
  | .double => c.getDouble k
  | .bool => c.getBool k
  | .logFormat => c.getLogFormat k
  | .list delimiter => c.getList k delimiter
  | .duration => c.getDuration k

section

variable {α : Type} {x : Except ConfigError String} {kind : ValueKind}
  {reader : List Char → Option α} {c : Configuration} {k : PropertyKey} {e : ConfigError}

theorem bind_readAs_eq_ok_iff {a : α} :
    (x >>= readAs kind reader k) = .ok a ↔ ∃ text, x = .ok text ∧ reader text.toList = some a := by
  cases x with
  | error e => simp [bind, Except.bind]
  | ok text => cases hread : reader text.toList <;> simp [bind, Except.bind, readAs, hread]

theorem bind_readAs_eq_error_iff :
    (x >>= readAs kind reader k) = .error e ↔ x = .error e ∨
      ∃ text, x = .ok text ∧ reader text.toList = none ∧ e = .typeMismatch k.name text kind := by
  cases x with
  | error e => simp [bind, Except.bind]
  | ok text =>
    cases hread : reader text.toList <;> simp [bind, Except.bind, readAs, hread, eq_comm]

theorem getList_eq_error_iff {delimiter : String} :
    c.getList k delimiter = .error e ↔ c.get k = .error e := by
  rw [getList]
  cases c.get k <;> simp [Except.map]

/-- Reading a span of time fails as reading a 64-bit integer does, or because it is negative. -/
theorem getDuration_eq_error_iff :
    c.getDuration k = .error e ↔ c.getLong k = .error e ∨ ∃ n, c.getLong k = .ok (.negSucc n) ∧
      e = .typeMismatch k.name (Text.signedNumeral (.negSucc n)) .duration := by
  unfold getDuration
  rcases c.getLong k with e' | ms | n <;> simp [eq_comm]

namespace Getter

/-- Whatever a value is read as, the error of the read is passed on. -/
theorem read_eq_error (g : Getter) (h : c.get k = .error e) : g.read c k = .error e := by
  cases g with
  | text => exact h
  | int | long | double | bool | logFormat => exact bind_readAs_eq_error_iff.mpr (.inl h)
  | list delimiter => exact getList_eq_error_iff.mpr h
  | duration =>
    exact getDuration_eq_error_iff.mpr (.inl (bind_readAs_eq_error_iff.mpr (.inl h)))

/-- Whatever a value is read as, an error is that of the read, or else it is about the type. -/
theorem error_cases (g : Getter) (h : g.read c k = .error e) :
    c.get k = .error e ∨ ∃ value kind, e = .typeMismatch k.name value kind := by
  cases g with
  | text => exact .inl h
  | int | long | double | bool | logFormat =>
    exact (bind_readAs_eq_error_iff.mp h).imp_right fun ⟨value, _, _, he⟩ => ⟨value, _, he⟩
  | list delimiter => exact .inl (getList_eq_error_iff.mp h)
  | duration =>
    rcases getDuration_eq_error_iff.mp h with hlong | ⟨n, -, he⟩
    · exact (bind_readAs_eq_error_iff.mp hlong).imp_right fun ⟨value, _, _, he⟩ => ⟨value, _, he⟩
    · exact .inr ⟨_, _, he⟩

end Getter

end

/-- A call of a configuration. -/
inductive Call where
  /-- The configuration is changed. -/
  | change (x : Change)
  /-- The key of a name is looked up. -/
  | key (name : String)
  /-- The key of a family is asked for. -/
  | templateKey (t : KeyTemplate) (service : String)
  /-- The known keys are listed. -/
  | keys
  /-- The names with a value of their own are listed. -/
  | userNames
  /-- The site file is asked for. -/
  | siteFile
  /-- A key is read. -/
  | get (g : Getter) (k : PropertyKey)
  /-- The layer that supplies a value is asked for. -/
  | source (k : PropertyKey)
  /-- Whether a key has a value that resolves. -/
  | isSet (k : PropertyKey)
  /-- Whether a key has a value that resolves and is not its default. -/
  | isSetByUser (k : PropertyKey)

namespace Call

/-- What comes back from a call. -/
def Reply : Call → Type
  | .change _ => Except ConfigError Unit
  | .key _ => Option PropertyKey
  | .templateKey _ _ => PropertyKey
  | .keys => List PropertyKey
  | .userNames => List String
  | .siteFile => Option String
  | .get g _ => Except ConfigError g.Result
  | .source _ => Option Source
  | .isSet _ => Bool
  | .isSetByUser _ => Bool

/-- The reply of a configuration to a call. -/
def reply (c : Configuration) : (x : Call) → x.Reply
  | .change (.set k v) => (c.set k v).map fun _ => ()
  | .change (.merge _) => .ok ()
  | .change (.unset _) => .ok ()
  | .key name => c.key? name
  | .templateKey t service => c.templateKey t service
  | .keys => c.keys
  | .userNames => c.userNames
  | .siteFile => c.siteFile?
  | .get g k => g.read c k
  | .source k => c.source? k
  | .isSet k => c.isSet k
  | .isSetByUser k => c.isSetByUser k

/-- The configuration after a call. Whether a key is set by the user is told without a read if no
layer has a value of it. -/
def after (c : Configuration) : Call → Configuration
  | .change x => x.apply c
  | .key name => c.note [name]
  | .templateKey t service => c.afterTemplateKey t service
  | .get _ k => c.afterReading k
  | .isSet k => c.afterReading k
  | .isSetByUser k => if c.store.isSetByUser k then c.afterReading k else c
  | _ => c

/-- Whether a call only reads. -/
def IsRead : Call → Prop
  | .change _ => False
  | _ => True

/-- Whether a call lists the known keys. -/
def listsKeys : Call → Bool
  | .keys => true
  | _ => false

/-- If a call asks for the key of a family, the name of this key finds it, or finds none. -/
def Fits : Call → Prop
  | .templateKey t service => t.Fits service
  | _ => True

/-- If a call asks for the key of a family, the name of this key finds it. -/
def Finds : Call → Prop
  | .templateKey t service => t.Finds service
  | _ => True

end Call

/-- A step of a run. -/
structure Step where
  /-- The call. -/
  call : Call
  /-- Whether it is a further one. -/
  further : Bool

/-- The replies of a run to the calls that are not further ones and do not list the keys. -/
def replies : Configuration → List Step → List (Σ x : Call, x.Reply)
  | _, [] => []
  | c, y :: ys =>
    if y.further || y.call.listsKeys then replies (y.call.after c) ys
    else ⟨y.call, y.call.reply c⟩ :: replies (y.call.after c) ys

/-- The run without the further calls. -/
def without (ys : List Step) : List Step := ys.filter fun y => !y.further

/-! ### Configurations that are alike -/

/-- Two configurations have the same values and the same view of names. -/
structure Alike (c c' : Configuration) : Prop where
  /-- The values. -/
  store : c.store = c'.store
  /-- The site file. -/
  siteFile : c.siteFile? = c'.siteFile?
  /-- The keys that names have or would get. -/
  view : ∀ n, c.registry.view n = c'.registry.view n

namespace Alike

variable {c c' : Configuration} {x : Call}

theorem refl (c : Configuration) : Alike c c := ⟨rfl, rfl, fun _ => rfl⟩

theorem trans {d : Configuration} (h : Alike c c') (h' : Alike c' d) : Alike c d :=
  ⟨h.store.trans h'.store, h.siteFile.trans h'.siteFile, fun n => (h.view n).trans (h'.view n)⟩

/-! #### Replies -/

theorem find? (h : Alike c c') (n : String) : c.registry.find? n = c'.registry.find? n := by
  rw [Registry.find?_eq, Registry.find?_eq, h.view]

theorem define (h : Alike c c') : c.define = c'.define := by
  funext n
  rw [Configuration.define, Configuration.define, h.find?, h.store]

theorem expansion (h : Alike c c') (k : PropertyKey) : c.expansion k = c'.expansion k := by
  rw [Configuration.expansion, Configuration.expansion, h.store, h.define]

theorem get (h : Alike c c') (k : PropertyKey) : c.get k = c'.get k := by
  rw [Configuration.get, Configuration.get, h.expansion]

theorem resolves (h : Alike c c') (k : PropertyKey) : c.resolves k = c'.resolves k := by
  rw [Configuration.resolves, Configuration.resolves, h.get]

theorem templateKey (h : Alike c c') {t : KeyTemplate} {service : String} (hfits : t.Fits service) :
    c.templateKey t service = c'.templateKey t service := by
  rw [Configuration.templateKey, Configuration.templateKey, Registry.format_fst hfits,
    Registry.format_fst hfits, h.view]

theorem read (h : Alike c c') (k : PropertyKey) (g : Getter) : g.read c k = g.read c' k := by
  have hget := h.get k
  cases g with
  | text => exact hget
  | list delimiter => exact congrArg (Except.map _) hget
  | duration =>
    have hlong : c.getLong k = c'.getLong k := congrArg (· >>= _) hget
    show c.getDuration k = c'.getDuration k
    rw [getDuration, getDuration, hlong]
  | _ => exact congrArg (· >>= _) hget

/-- Configurations that are alike reply alike, unless their keys are listed. -/
theorem reply (h : Alike c c') (hfits : x.Fits) (hkeys : x.listsKeys = false) :
    x.reply c = x.reply c' := by
  cases x with
  | change x =>
    cases x with
    | set k v =>
      show (c.set k v).map (fun _ => ()) = (c'.set k v).map fun _ => ()
      by_cases hv : v = ""
      · subst hv
        rfl
      · rw [set_eq_ok_iff.mpr ⟨hv, rfl⟩, set_eq_ok_iff.mpr ⟨hv, rfl⟩]
        rfl
    | merge entries => rfl
    | unset k => rfl
  | key name => exact h.find? name
  | templateKey t service => exact h.templateKey hfits
  | keys => cases hkeys
  | userNames => exact congrArg Store.userNames h.store
  | siteFile => exact h.siteFile
  | get g k => exact h.read k g
  | source k => exact congrArg (fun s => Store.source? s k) h.store
  | isSet k =>
    show (c.store.isSet k && c.resolves k) = (c'.store.isSet k && c'.resolves k)
    rw [h.store, h.resolves]
  | isSetByUser k =>
    show (c.store.isSetByUser k && c.resolves k) = (c'.store.isSetByUser k && c'.resolves k)
    rw [h.store, h.resolves]

/-! #### Steps -/

theorem note (h : Alike c c') (names names' : List String) :
    Alike (c.note names) (c'.note names') where
  store := h.store
  siteFile := h.siteFile
  view n := by
    show (c.registry.noteAll names).view n = (c'.registry.noteAll names').view n
    rw [Registry.view_noteAll, Registry.view_noteAll, h.view]

theorem afterTemplateKey (h : Alike c c') {t : KeyTemplate} {service : String}
    (hfits : t.Fits service) :
    Alike (c.afterTemplateKey t service) (c'.afterTemplateKey t service) where
  store := h.store
  siteFile := h.siteFile
  view n := by
    show (c.registry.format t service).2.view n = (c'.registry.format t service).2.view n
    rw [Registry.view_format, Registry.view_format, Registry.format_fst hfits,
      Registry.format_fst hfits, h.view, h.view]

theorem mergeEntry (h : Alike c c') (e : String × String) :
    Alike (c.mergeEntry e) (c'.mergeEntry e) := by
  unfold Configuration.mergeEntry
  dsimp only
  split
  · exact h
  · refine ⟨?_, h.siteFile, fun n => ?_⟩
    · rw [Registry.register_fst, Registry.register_fst, h.view, h.store]
    · rw [Registry.view_register, Registry.view_register, h.view, h.view]

theorem merge (h : Alike c c') (entries : List (String × String)) :
    Alike (c.merge entries) (c'.merge entries) := by
  induction entries generalizing c c' with
  | nil => exact h
  | cons e entries ih =>
    rw [merge_cons, merge_cons]
    exact ih (h.mergeEntry e)

theorem apply (h : Alike c c') (x : Change) : Alike (x.apply c) (x.apply c') := by
  cases x with
  | merge entries => exact h.merge entries
  | unset k => exact ⟨congrArg (Store.remove · k) h.store, h.siteFile, h.view⟩
  | set k v =>
    by_cases hv : v = ""
    · subst hv
      exact h
    · rw [Change.apply_set c k hv, Change.apply_set c' k hv]
      exact ⟨congrArg (Store.put · k v) h.store, h.siteFile, h.view⟩

/-- The same call leaves configurations alike. -/
theorem after (h : Alike c c') (hfits : x.Fits) : Alike (x.after c) (x.after c') := by
  cases x with
  | change x => exact h.apply x
  | key name => exact h.note _ _
  | templateKey t service => exact h.afterTemplateKey hfits
  | get g k => exact h.note _ _
  | isSet k => exact h.note _ _
  | isSetByUser k =>
    have hsame : c.store.isSetByUser k = c'.store.isSetByUser k :=
      congrArg (Store.isSetByUser · k) h.store
    show Alike (if c.store.isSetByUser k then c.afterReading k else c)
      (if c'.store.isSetByUser k then c'.afterReading k else c')
    rw [hsame]
    split
    · exact h.note _ _
    · exact h
  | _ => exact h

/-- A read leaves a configuration alike, if it asks for no key but such as their names find. -/
theorem afterRead (c : Configuration) (hread : x.IsRead) (hfinds : x.Finds) :
    Alike (x.after c) c := by
  have hnote : ∀ names, Alike (c.note names) c := fun names => (refl c).note names []
  cases x with
  | change x => exact hread.elim
  | key name => exact hnote _
  | templateKey t service =>
    exact ⟨rfl, rfl, fun n => Registry.view_format_of_finds hfinds c.registry n⟩
  | get g k => exact hnote _
  | isSet k => exact hnote _
  | isSetByUser k =>
    show Alike (if c.store.isSetByUser k then c.afterReading k else c) c
    split
    · exact hnote _
    · exact refl c
  | _ => exact refl c

end Alike

/-! ### Runs -/

/-- Runs of configurations that are alike reply alike, whatever is read further in the first. -/
theorem Alike.replies {c c' : Configuration} (h : Alike c c') {ys : List Step}
    (hfits : ∀ y ∈ ys, y.call.Fits)
    (hfurther : ∀ y ∈ ys, y.further = true → y.call.IsRead ∧ y.call.Finds) :
    c.replies ys = c'.replies (without ys) := by
  induction ys generalizing c c' with
  | nil => rfl
  | cons y ys ih =>
    rw [List.forall_mem_cons] at hfits hfurther
    obtain ⟨call, further⟩ := y
    cases further with
    | true =>
      obtain ⟨hread, hfinds⟩ := hfurther.1 rfl
      exact ih ((afterRead c hread hfinds).trans h) hfits.2 hfurther.2
    | false =>
      have hrest := ih (h.after hfits.1) hfits.2 hfurther.2
      cases hkeys : call.listsKeys with
      | true => simpa [Configuration.replies, without, hkeys] using hrest
      | false => simpa [Configuration.replies, without, hkeys, h.reply hfits.1 hkeys] using hrest

/-- **Reads go unnoticed.** Whatever is read further in a run, all other calls reply as without it,
unless they list the keys: provided that a further call for the key of a family is for one that its
name finds, and that any other such call is for one that its name finds, if it finds any. So it is
for both families and any service id, which for a further call may not be empty. A further read has
to come to an end, or else no call after it is made. -/
theorem replies_further (c : Configuration) (ys : List Step) (hfits : ∀ y ∈ ys, y.call.Fits)
    (hfurther : ∀ y ∈ ys, y.further = true → y.call.IsRead ∧ y.call.Finds) :
    c.replies ys = c.replies (without ys) :=
  (Alike.refl c).replies hfits hfurther

/-- Further reads around a reference to the peers of a service, of which nobody knew before. -/
theorem replies_further_reference :
    let a := PropertyKey.custom "a"
    let ys : List Step :=
      [⟨.templateKey .servicePeers "meta", true⟩,
        ⟨.change (.merge [("a", "$\x7bquorumsh.meta.peers\x7d")]), false⟩, ⟨.get .int a, true⟩,
        ⟨.key "quorumsh.journal.groupid", true⟩, ⟨.get .text a, false⟩,
        ⟨.templateKey .serviceGroupId "", false⟩, ⟨.isSet a, true⟩,
        ⟨.key "quorumsh..groupid", false⟩]
    (∀ y ∈ ys, y.call.Fits) ∧
      (∀ y ∈ ys, y.further = true → y.call.IsRead ∧ y.call.Finds) ∧
      Configuration.empty.replies ys = Configuration.empty.replies (without ys) := by
  intro a ys
  have hpeers : KeyTemplate.servicePeers.Finds "meta" :=
    KeyTemplate.finds_of_mem (by decide) (by decide)
  have hgroup : KeyTemplate.serviceGroupId.Fits "" := KeyTemplate.fits_of_mem (by decide) ""
  have hfits : ∀ y ∈ ys, y.call.Fits := by
    simp [ys, Call.Fits, hpeers.fits, hgroup]
  have hfurther : ∀ y ∈ ys, y.further = true → y.call.IsRead ∧ y.call.Finds := by
    simp [ys, Call.IsRead, Call.Finds, hpeers]
  exact ⟨hfits, hfurther, replies_further .empty ys hfits hfurther⟩

/-- A name that finds nothing becomes known when the key of a family with this name is asked for. -/
theorem noticed_of_unknown {c : Configuration} {t : KeyTemplate} {service : String}
    (h : c.key? (t.keyName service) = none) :
    (Call.key (t.keyName service)).reply (c.afterTemplateKey t service)
      ≠ (Call.key (t.keyName service)).reply c := by
  have hafter : (c.afterTemplateKey t service).key? (t.keyName service)
      = some (t.instantiate (t.keyName service)) := Registry.find?_format_of_unknown h
  show (c.afterTemplateKey t service).key? (t.keyName service) ≠ c.key? (t.keyName service)
  rw [hafter, h]
  exact Option.some_ne_none _

/-- A read that is noticed: with an empty service id, the peers of a service have a name that
nothing finds, until somebody asks for their key. -/
theorem exists_noticed_read :
    let ys : List Step :=
      [⟨.templateKey .servicePeers "", true⟩, ⟨.key "quorumsh..peers", false⟩]
    (∀ y ∈ ys, y.further = true → y.call.IsRead) ∧
      Configuration.empty.replies ys ≠ Configuration.empty.replies (without ys) := by
  intro ys
  refine ⟨by simp [ys, Call.IsRead], fun hsame => ?_⟩
  have hunknown : Configuration.empty.key? (KeyTemplate.servicePeers.keyName "") = none := by decide
  simp only [ys, without, Configuration.replies, Call.listsKeys, List.filter] at hsame
  have hreply := eq_of_heq (Sigma.mk.inj (List.cons.inj hsame).1).2
  exact noticed_of_unknown hunknown hreply

end RaftAdmin.Configuration
