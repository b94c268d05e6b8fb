import DOpenWrt.Lib.Except
import DOpenWrt.Oaf.UciValue

/-!
# Values written to the configuration

The wrappers of `appfilter_config.c` that change an option and that commit a package. `libuci` is not part of the
repository: it is a parameter, and `LibUci.Documented` is what the wrappers rely on.
-/

namespace Oaf
open CString (str printInt)

/-- `libuci`: the files, the contexts that are open on them, and what a pointer points at. The result 0 is `UCI_OK`. -/
structure LibUci where
  Files : Type
  Context : Type
  Ptr : Type
  allocContext : Files → Option Context
  freeContext : Context → Files
  /-- `uci_lookup_ptr`, which loads the package if it is not loaded. -/
  lookupPtr : Context → List UInt8 → Option Ptr × Context
  /-- The element that the pointer has found, if the lookup was complete. -/
  found : Context → Ptr → UciLookup
  set : Context → Ptr → ℤ × Context
  delete : Context → Ptr → ℤ × Context
  addList : Context → Ptr → ℤ × Context
  save : Context → Ptr → ℤ × Context
  commit : Context → Ptr → ℤ × Ptr × Context
  unload : Context → Ptr → Context

def maxParamListLen : ℕ := 1024

/-- The text of an option and its value, `"%s=%s"`. -/
def assignment (key : String) (value : List UInt8) : List UInt8 := str key ++ str "=" ++ value

/-- `param_tmp`, a buffer of the size, with the text in it. -/
def paramTmp (size : ℕ) (text : List UInt8) : Except OutOfBounds (List UInt8) :=
  if text.length < size then .ok text else .error .write

theorem length_assignment (key : String) (value : List UInt8) :
    (assignment key value).length = (str key).length + 1 + value.length := by
  rw [assignment, List.length_append, List.length_append]
  rfl

theorem paramTmp_ok {size : ℕ} {text : List UInt8} (h : text.length < size) : paramTmp size text = .ok text := if_pos h

namespace LibUci

section
variable (lib : LibUci)

/-- What a reader finds at a key. -/
def read (ctx : lib.Context) : Uci := fun key =>
  match lib.lookupPtr ctx (str key) with
  | (none, _) => .notFound
  | (some ptr, ctx) => lib.found ctx ptr

/-- What the wrappers do with `param_tmp`: look it up, change the option, save the change and unload the package. -/
def write (change : lib.Context → lib.Ptr → ℤ × lib.Context) (ctx : lib.Context) (param : List UInt8) :
    ℤ × lib.Context :=
  match lib.lookupPtr ctx param with
  | (none, ctx) => (1, ctx)
  | (some ptr, ctx) =>
    let (ret, ctx) := change ctx ptr
    let (ret, ctx) := if ret = 0 then lib.save ctx ptr else (ret, ctx)
    (ret, lib.unload ctx ptr)

def afUciSetValue (ctx : lib.Context) (key : String) (value : List UInt8) : Except OutOfBounds (ℤ × lib.Context) := do
  let param ← paramTmp 2048 (assignment key value)
  return lib.write lib.set ctx param

def afUciSetIntValue (ctx : lib.Context) (key : String) (value : ℤ) : Except OutOfBounds (ℤ × lib.Context) := do
  let param ← paramTmp 128 (assignment key (printInt value))
  return lib.write lib.set ctx param

def afUciDelete (ctx : lib.Context) (key : String) : Except OutOfBounds (ℤ × lib.Context) := do
  let param ← paramTmp 128 (str key)
  return lib.write lib.delete ctx param

def afUciAddList (ctx : lib.Context) (key : String) (value : List UInt8) : Except OutOfBounds (ℤ × lib.Context) :=
  if maxParamListLen - 1 ≤ value.length + (str key).length then .ok (-1, ctx)
  else do
    let param ← paramTmp maxParamListLen (assignment key value)
    return lib.write lib.addList ctx param

/-- The result of `uci_commit` makes no difference. -/
def afUciCommit (ctx : lib.Context) (package : String) : ℤ × lib.Context :=
  match lib.lookupPtr ctx (str package) with
  | (none, ctx) => (-1, ctx)
  | (some ptr, ctx) =>
    let (_, ptr, ctx) := lib.commit ctx ptr
    (0, lib.unload ctx ptr)

end

end LibUci

/-! ### What is documented -/

/-- The values of a list; a string becomes the first of them. -/
def UciLookup.values : UciLookup → List (List UInt8)
  | .optionList values _ => values
  | .optionString value => [value]
  | _ => []

/-- An option that is set to the text; the empty text deletes it. -/
def optionSet (value : List UInt8) : UciLookup := if value = [] then .notFound else .optionString value

/-- One of the options is there, and with it their section. -/
def SectionFound (keys : List String) (uci : Uci) : Prop := ∃ key ∈ keys, uci key ≠ .notFound

/-- Text without control characters. -/
def PlainText (value : List UInt8) : Prop := ∀ c ∈ value, 32 ≤ c.toNat ∧ c.toNat ≤ 126

instance (value : List UInt8) : Decidable (PlainText value) :=
  List.decidableBAll (fun c : UInt8 => 32 ≤ c.toNat ∧ c.toNat ≤ 126) value

namespace LibUci

section
variable (lib : LibUci) (package : String) (keys : List String)

/-- What is found at the keys. -/
def Reads (ctx : lib.Context) (uci : Uci) : Prop := ∀ key ∈ keys, lib.read ctx key = uci key

/-- The change succeeds and is saved, so that it is found when the package has been unloaded. -/
def Changes (change : lib.Context → lib.Ptr → ℤ × lib.Context) (ctx : lib.Context) (param : List UInt8) (uci : Uci) :
    Prop :=
  ∃ ptr ctx₁, lib.lookupPtr ctx param = (some ptr, ctx₁) ∧ (change ctx₁ ptr).1 = 0 ∧
    (lib.save (change ctx₁ ptr).2 ptr).1 = 0 ∧
    lib.Reads keys (lib.unload (lib.save (change ctx₁ ptr).2 ptr).2 ptr) uci

/-- What the wrappers rely on at the options of one section of a package, where the files can be written. Only in a
section that is there can an option be set. -/
structure Documented : Prop where
  set : ∀ {ctx key value}, key ∈ keys → SectionFound keys (lib.read ctx) → PlainText value →
    lib.Changes keys lib.set ctx (assignment key value) (Function.update (lib.read ctx) key (optionSet value))
  delete : ∀ {ctx key}, key ∈ keys → lib.read ctx key ≠ .notFound →
    lib.Changes keys lib.delete ctx (str key) (Function.update (lib.read ctx) key .notFound)
  addList : ∀ {ctx key value}, key ∈ keys → SectionFound keys (lib.read ctx) → PlainText value →
    value ≠ [] → ∃ raw, lib.Changes keys lib.addList ctx (assignment key value)
      (Function.update (lib.read ctx) key (.optionList ((lib.read ctx key).values ++ [value]) raw))
  /-- What has been saved is in the files when it is committed: a new context finds it. -/
  commit : ∀ {ctx}, SectionFound keys (lib.read ctx) → ∃ ptr ctx₁,
    lib.lookupPtr ctx (str package) = (some ptr, ctx₁) ∧
    ∀ ctx', lib.allocContext (lib.freeContext (lib.unload (lib.commit ctx₁ ptr).2.2 (lib.commit ctx₁ ptr).2.1)) =
      some ctx' → lib.Reads keys ctx' (lib.read ctx)

end

/-! ### The wrappers -/

section
variable {lib : LibUci} {package : String} {keys : List String} {ctx : lib.Context} {uci : Uci} {key : String}
  {value : List UInt8}

theorem Reads.update {found : UciLookup} {ctx' : lib.Context} (hreads : lib.Reads keys ctx uci)
    (h : lib.Reads keys ctx' (Function.update (lib.read ctx) key found)) :
    lib.Reads keys ctx' (Function.update uci key found) := by
  intro other hother
  rw [h other hother]
  by_cases heq : other = key
  · rw [heq, Function.update_self, Function.update_self]
  · rw [Function.update_of_ne heq, Function.update_of_ne heq, hreads other hother]

theorem Reads.sectionFound (hreads : lib.Reads keys ctx uci) (h : SectionFound keys uci) :
    SectionFound keys (lib.read ctx) := by
  obtain ⟨other, hother, hne⟩ := h
  exact ⟨other, hother, hreads other hother ▸ hne⟩

theorem Changes.write {change : lib.Context → lib.Ptr → ℤ × lib.Context} {param : List UInt8}
    (h : lib.Changes keys change ctx param uci) :
    ∃ ctx', lib.write change ctx param = (0, ctx') ∧ lib.Reads keys ctx' uci := by
  obtain ⟨ptr, ctx₁, hlookup, hchange, hsave, hreads⟩ := h
  refine ⟨_, ?_, hreads⟩
  rw [LibUci.write, hlookup]
  dsimp only
  rw [if_pos hchange]
  exact Prod.ext hsave rfl

theorem Documented.afUciSetValue (hlib : lib.Documented package keys) (hreads : lib.Reads keys ctx uci)
    (hkey : key ∈ keys) (hsection : SectionFound keys uci) (hplain : PlainText value)
    (hfits : (assignment key value).length < 2048) : ∃ ctx', lib.afUciSetValue ctx key value = .ok (0, ctx') ∧
      lib.Reads keys ctx' (Function.update uci key (optionSet value)) := by
  obtain ⟨ctx', hwrite, hreads'⟩ := (hlib.set hkey (hreads.sectionFound hsection) hplain).write
  refine ⟨ctx', ?_, hreads.update hreads'⟩
  rw [LibUci.afUciSetValue, paramTmp_ok hfits, Except.ok_bind, hwrite]
  rfl

theorem Documented.afUciSetIntValue {n : ℤ} (hlib : lib.Documented package keys) (hreads : lib.Reads keys ctx uci)
    (hkey : key ∈ keys) (hsection : SectionFound keys uci) (hplain : PlainText (printInt n))
    (hfits : (assignment key (printInt n)).length < 128) : ∃ ctx', lib.afUciSetIntValue ctx key n = .ok (0, ctx') ∧
      lib.Reads keys ctx' (Function.update uci key (optionSet (printInt n))) := by
  obtain ⟨ctx', hwrite, hreads'⟩ := (hlib.set hkey (hreads.sectionFound hsection) hplain).write
  refine ⟨ctx', ?_, hreads.update hreads'⟩
  rw [LibUci.afUciSetIntValue, paramTmp_ok hfits, Except.ok_bind, hwrite]
  rfl

theorem Documented.afUciDelete (hlib : lib.Documented package keys) (hreads : lib.Reads keys ctx uci)
    (hkey : key ∈ keys) (hfound : uci key ≠ .notFound) (hfits : (str key).length < 128) :
    ∃ ctx', lib.afUciDelete ctx key = .ok (0, ctx') ∧ lib.Reads keys ctx' (Function.update uci key .notFound) := by
  obtain ⟨ctx', hwrite, hreads'⟩ := (hlib.delete hkey (hreads key hkey ▸ hfound)).write
  refine ⟨ctx', ?_, hreads.update hreads'⟩
  rw [LibUci.afUciDelete, paramTmp_ok hfits, Except.ok_bind, hwrite]
  rfl

/-- What the check of the length lets pass fits the buffer. -/
theorem Documented.afUciAddList (hlib : lib.Documented package keys) (hreads : lib.Reads keys ctx uci)
    (hkey : key ∈ keys) (hsection : SectionFound keys uci) (hplain : PlainText value)
    (hne : value ≠ []) (hfits : value.length + (str key).length < maxParamListLen - 1) :
    ∃ ctx' raw, lib.afUciAddList ctx key value = .ok (0, ctx') ∧
      lib.Reads keys ctx' (Function.update uci key (.optionList ((uci key).values ++ [value]) raw)) := by
  obtain ⟨raw, hchanges⟩ := hlib.addList hkey (hreads.sectionFound hsection) hplain hne
  obtain ⟨ctx', hwrite, hreads'⟩ := hchanges.write
  have hparam : (assignment key value).length < maxParamListLen := by
    rw [length_assignment]
    omega
  rw [hreads key hkey] at hreads'
  refine ⟨ctx', raw, ?_, hreads.update hreads'⟩
  rw [LibUci.afUciAddList, if_neg (Nat.not_le.2 hfits), paramTmp_ok hparam, Except.ok_bind, hwrite]
  rfl

theorem Documented.afUciCommit (hlib : lib.Documented package keys) (hreads : lib.Reads keys ctx uci)
    (hsection : SectionFound keys uci) {ctx' : lib.Context}
    (h : lib.allocContext (lib.freeContext (lib.afUciCommit ctx package).2) = some ctx') : lib.Reads keys ctx' uci := by
  obtain ⟨ptr, ctx₁, hlookup, hopen⟩ := hlib.commit (hreads.sectionFound hsection)
  rw [LibUci.afUciCommit, hlookup] at h
  intro key hkey
  rw [hopen ctx' h key hkey, hreads key hkey]

end

end LibUci

end Oaf
