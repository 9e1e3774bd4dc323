namespace Statechart

/-- The types of value that an event can carry. -/
inductive ArgumentType where
  | u8 | u16 | u32 | u64 | i8 | i16 | i32 | i64 | usize | bool | char | string | str | unit | vecI32
deriving DecidableEq

namespace ArgumentType

def name : ArgumentType → String
  | u8 => "u8"
  | u16 => "u16"
  | u32 => "u32"
  | u64 => "u64"
  | i8 => "i8"
  | i16 => "i16"
  | i32 => "i32"
  | i64 => "i64"
  | usize => "usize"
  | bool => "bool"
  | char => "char"
  | string => "alloc::string::String"
  | str => "&str"
  | unit => "()"
  | vecI32 => "alloc::vec::Vec<i32>"

end ArgumentType

/-- A value carried by an event. An owned and a borrowed text differ in type, also where they hold the
    same characters. -/
inductive Argument where
  | u8 (value : UInt8)
  | u16 (value : UInt16)
  | u32 (value : UInt32)
  | u64 (value : UInt64)
  | i8 (value : Int8)
  | i16 (value : Int16)
  | i32 (value : Int32)
  | i64 (value : Int64)
  | usize (value : UInt64)
  | bool (value : Bool)
  | char (value : Char)
  | string (value : String)
  | str (value : String)
  | unit
  | vecI32 (value : List Int32)
deriving DecidableEq

def Argument.type : Argument → ArgumentType
  | u8 _ => .u8
  | u16 _ => .u16
  | u32 _ => .u32
  | u64 _ => .u64
  | i8 _ => .i8
  | i16 _ => .i16
  | i32 _ => .i32
  | i64 _ => .i64
  | usize _ => .usize
  | bool _ => .bool
  | char _ => .char
  | string _ => .string
  | str _ => .str
  | unit => .unit
  | vecI32 _ => .vecI32

abbrev Arguments := List Argument

namespace Arguments

def types (arguments : Arguments) : List ArgumentType := arguments.map Argument.type

def describe (arguments : Arguments) : String :=
  String.intercalate ", " (arguments.types.map ArgumentType.name)

def get? (arguments : Arguments) (type : ArgumentType) (index : Nat) : Option Argument :=
  (arguments[index]?).filter fun argument => argument.type = type

def summary (arguments : Arguments) : String :=
  "EventArgs \x7b values: [" ++
    String.intercalate ", " (arguments.types.map fun type => "Argument<" ++ type.name ++ ">") ++ "] \x7d"

end Arguments

structure Signal (E : Type) where
  event : E
  arguments : Arguments
deriving DecidableEq

/-- A signal on its way to a machine. With priority it goes in front of all signals that wait. -/
structure Post (E : Type) where
  signal : Signal E
  priority : Bool
deriving DecidableEq

end Statechart
