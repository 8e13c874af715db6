import SlotArray.Definition.SlotLines
import SlotArray.Extraction

/-! The source text of one container.

The text is a list of lines. It names the runtime crate and the standard library by
absolute paths, so it can stand in any module. -/
namespace SlotArray

/-- The traits every container derives. -/
def defaultDerives : List String := ["Clone", "Copy", "Default", "PartialEq", "Eq", "Hash"]

/-- What a container's text is made of. -/
structure Declaration where
  name : String
  size : Nat
  /-- The visibility as written; nothing for a private type. -/
  visibility : String
  /-- The element type parameter. -/
  element : String
  /-- Attributes carried over, one after another. -/
  attributes : List String
  /-- Derives added behind the default ones. -/
  extraDerives : List String
deriving DecidableEq, Repr

namespace Declaration

/-- A public container of `T`s, as a request for a named one asks for. -/
def ofRequest (request : Request) (extraDerives : List String) : Declaration :=
  ⟨request.name, request.size.val, "pub", defaultElement, [], extraDerives⟩

/-- The container's type. -/
def typeText (d : Declaration) : String := d.name ++ "<" ++ d.element ++ ">"

/-- Attributes and documentation in front of the type. -/
def headLines (d : Declaration) : List String :=
  d.attributes ++ (if d.attributes.isEmpty then [] else ["///"]) ++
    ["/// Fixed-capacity container with " ++ toString d.size ++ " inline slot" ++
        (if d.size = 1 then "" else "s") ++ " of `" ++ d.element ++ "`.",
      "///",
      "/// Access is strict: an index outside `0.." ++ toString d.size ++
        "` makes `get`, `get_mut` and",
      "/// `set` fail, and makes `Index`/`IndexMut` panic.",
      "#[derive(" ++ ", ".intercalate (defaultDerives ++ d.extraDerives) ++ ")]"]

/-- The type itself. -/
def typeLines (d : Declaration) : List String :=
  [(if d.visibility.isEmpty then "" else d.visibility ++ " ") ++ "struct " ++ d.typeText ++
      " \x7b"] ++
    Definition.fieldLines d.size d.element ++ ["\x7d", ""]

/-- The inherent operations. -/
def inherentLines (d : Declaration) : List String :=
  let t := d.element
  ["impl<" ++ t ++ "> " ++ d.typeText ++ " \x7b",
      "    /// Number of slots.",
      "    pub const LENGTH: usize = " ++ toString d.size ++ ";",
      "",
      "    /// Builds the container by calling `f` once per slot, in index order.",
      "    pub fn from_fn(mut f: impl ::core::ops::FnMut(usize) -> " ++ t ++ ") -> Self \x7b",
      "        Self \x7b"] ++
    Definition.fromFnLines d.size ++
    ["        \x7d", "    \x7d", "",
      "    #[inline]",
      "    pub fn get(&self, index: usize) -> ::core::option::Option<&" ++ t ++ "> \x7b",
      "        match index \x7b"] ++
    Definition.getArms d.size ++
    ["        \x7d", "    \x7d", "",
      "    #[inline]",
      "    pub fn get_mut(&mut self, index: usize) -> ::core::option::Option<&mut " ++ t ++
        "> \x7b",
      "        match index \x7b"] ++
    Definition.getMutArms d.size ++
    ["        \x7d", "    \x7d", "",
      "    /// Stores `value` at `index` and returns the value it replaced.",
      "    #[inline]",
      "    pub fn set(&mut self, index: usize, value: " ++ t ++ ") -> ::core::result::Result<" ++
        t ++ ", ::struct_array::IndexOutOfRange> \x7b",
      "        match index \x7b"] ++
    Definition.setArms d.size ++
    ["        \x7d", "    \x7d", "",
      "    /// Moves the slots, in index order, into a `Vec`.",
      "    pub fn into_vec(self) -> ::std::vec::Vec<" ++ t ++ "> \x7b",
      "        ::std::vec![" ++ Definition.slotList d.size "" ++ "]",
      "    \x7d", "",
      "    /// Clones the slots, in index order, into a `Vec`.",
      "    pub fn to_vec(&self) -> ::std::vec::Vec<" ++ t ++ ">",
      "    where",
      "        " ++ t ++ ": ::core::clone::Clone,",
      "    \x7b",
      "        ::std::vec![" ++ Definition.slotList d.size ".clone()" ++ "]",
      "    \x7d",
      "\x7d", ""]

/-- One of the two indexing operators. -/
def indexBody (d : Declaration) (access : String) : List String :=
  ["        match " ++ d.name ++ "::" ++ access ++ "(self, index) \x7b",
    "            ::core::option::Option::Some(value) => value,",
    "            ::core::option::Option::None => ::struct_array::out_of_range(index, " ++
      toString d.size ++ "),",
    "        \x7d", "    \x7d", "\x7d", ""]

/-- Indexing and debugging. -/
def operatorLines (d : Declaration) : List String :=
  let t := d.element
  ["impl<" ++ t ++ "> ::core::ops::Index<usize> for " ++ d.typeText ++ " \x7b",
      "    type Output = " ++ t ++ ";", "",
      "    #[inline]",
      "    fn index(&self, index: usize) -> &" ++ t ++ " \x7b"] ++
    d.indexBody "get" ++
    ["impl<" ++ t ++ "> ::core::ops::IndexMut<usize> for " ++ d.typeText ++ " \x7b",
      "    #[inline]",
      "    fn index_mut(&mut self, index: usize) -> &mut " ++ t ++ " \x7b"] ++
    d.indexBody "get_mut" ++
    ["impl<" ++ t ++ ": ::core::fmt::Debug> ::core::fmt::Debug for " ++ d.typeText ++ " \x7b",
      "    fn fmt(&self, f: &mut ::core::fmt::Formatter<'_>) -> ::core::fmt::Result \x7b",
      "        f.debug_list()"] ++
    Definition.debugLines d.size ++
    ["            .finish()", "    \x7d", "\x7d", ""]

/-- The operations every container has in common. -/
def traitLines (d : Declaration) : List String :=
  let t := d.element
  ["impl<" ++ t ++ "> ::struct_array::StructArray for " ++ d.typeText ++ " \x7b",
    "    type Item = " ++ t ++ ";", "",
    "    const LENGTH: usize = " ++ toString d.size ++ ";", "",
    "    #[inline]",
    "    fn get(&self, index: usize) -> ::core::option::Option<&" ++ t ++ "> \x7b",
    "        " ++ d.name ++ "::get(self, index)",
    "    \x7d", "",
    "    #[inline]",
    "    fn get_mut(&mut self, index: usize) -> ::core::option::Option<&mut " ++ t ++ "> \x7b",
    "        " ++ d.name ++ "::get_mut(self, index)",
    "    \x7d", "",
    "    fn into_vec(self) -> ::std::vec::Vec<" ++ t ++ "> \x7b",
    "        " ++ d.name ++ "::into_vec(self)",
    "    \x7d", "\x7d"]

/-- All lines of a container's text. An attribute counts as one line whatever it holds. -/
def lines (d : Declaration) : List String :=
  d.headLines ++ d.typeLines ++ d.inherentLines ++ d.operatorLines ++ d.traitLines

/-- The source text of a container. -/
def render (d : Declaration) : String :=
  String.join (d.lines.map (· ++ "\n"))

end Declaration

/-- The text of a named container. -/
def Request.render (request : Request) (extraDerives : List String) : String :=
  (Declaration.ofRequest request extraDerives).render

end SlotArray
