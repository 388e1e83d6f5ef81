/-!
The signatures of the classes and modules that every program starts with, file by file.

They say of the core classes what an analysis of a program needs: the class hierarchy, and the
methods through which types flow.
-/

namespace RbsSynth.Core

def arrayLines : List String :=
  ["class Array[unchecked out Elem]",
   "  include Enumerable[Elem]",
   "",
   "  def each: () \x7b (Elem item) -> void \x7d -> self",
   "",
   "  def []: (Integer index) -> Elem",
   "",
   "  def []=: (Integer index, Elem value) -> Elem",
   "",
   "  def first: () -> Elem?",
   "",
   "  def last: () -> Elem?",
   "",
   "  def size: () -> Integer",
   "",
   "  def length: () -> Integer",
   "",
   "  def empty?: () -> bool",
   "",
   "  def push: (*Elem items) -> self",
   "",
   "  def <<: (Elem item) -> self",
   "",
   "  def pop: () -> Elem?",
   "",
   "  def shift: () -> Elem?",
   "",
   "  def concat: (*Array[Elem] arrays) -> self",
   "",
   "  def join: (?String separator) -> String",
   "",
   "  def compact: () -> Array[Elem]",
   "",
   "  def flatten: () -> Array[untyped]",
   "",
   "  def uniq: () -> Array[Elem]",
   "",
   "  def reverse: () -> Array[Elem]",
   "",
   "  def each_slice: (Integer size) \x7b (Array[Elem] slice) -> void \x7d -> self",
   "end"]

def basicObjectLines : List String :=
  ["# The root of the class hierarchy.",
   "class BasicObject",
   "  def initialize: () -> void",
   "",
   "  def ==: (untyped other) -> bool",
   "",
   "  def !=: (untyped other) -> bool",
   "",
   "  def !: () -> bool",
   "",
   "  def equal?: (untyped other) -> bool",
   "",
   "  def __id__: () -> Integer",
   "",
   "  def instance_eval: [U] () \x7b (self) [self: self] -> U \x7d -> U",
   "",
   "  def instance_exec: [U] (*untyped args) \x7b (*untyped) [self: self] -> U \x7d -> U",
   "end"]

def booleansLines : List String :=
  ["class NilClass",
   "  def to_s: () -> String",
   "",
   "  def to_a: () -> Array[untyped]",
   "",
   "  def to_h: () -> Hash[untyped, untyped]",
   "",
   "  def inspect: () -> String",
   "",
   "  def nil?: () -> true",
   "",
   "  def &: (untyped other) -> false",
   "",
   "  def |: (untyped other) -> bool",
   "end",
   "",
   "class TrueClass",
   "  def !: () -> false",
   "",
   "  def &: (untyped other) -> bool",
   "",
   "  def |: (untyped other) -> true",
   "",
   "  def ^: (untyped other) -> bool",
   "",
   "  def to_s: () -> String",
   "end",
   "",
   "class FalseClass",
   "  def !: () -> true",
   "",
   "  def &: (untyped other) -> false",
   "",
   "  def |: (untyped other) -> bool",
   "",
   "  def ^: (untyped other) -> bool",
   "",
   "  def to_s: () -> String",
   "end"]

def classLines : List String :=
  ["class Class < Module",
   "  def new: (*untyped args) ?\x7b (*untyped) -> untyped \x7d -> untyped",
   "",
   "  def allocate: () -> untyped",
   "",
   "  def superclass: () -> Class?",
   "",
   "  def inherited: (Class subclass) -> untyped",
   "end"]

def comparableLines : List String :=
  ["module Comparable",
   "  def <: (untyped other) -> bool",
   "",
   "  def <=: (untyped other) -> bool",
   "",
   "  def >: (untyped other) -> bool",
   "",
   "  def >=: (untyped other) -> bool",
   "",
   "  def between?: (untyped min, untyped max) -> bool",
   "",
   "  def clamp: (untyped min, untyped max) -> self",
   "end"]

def enumerableLines : List String :=
  ["module Enumerable[unchecked out Elem]",
   "  def each_with_index: () \x7b (Elem item, Integer index) -> void \x7d -> self",
   "",
   "  def each_with_object: [U] (U memo) \x7b (Elem item, U memo) -> void \x7d -> U",
   "",
   "  def map: [U] () \x7b (Elem item) -> U \x7d -> Array[U]",
   "",
   "  def flat_map: [U] () \x7b (Elem item) -> Array[U] \x7d -> Array[U]",
   "",
   "  def select: () \x7b (Elem item) -> boolish \x7d -> Array[Elem]",
   "",
   "  def reject: () \x7b (Elem item) -> boolish \x7d -> Array[Elem]",
   "",
   "  def find: () \x7b (Elem item) -> boolish \x7d -> Elem?",
   "",
   "  def to_a: () -> Array[Elem]",
   "",
   "  def include?: (untyped item) -> bool",
   "",
   "  def count: () -> Integer",
   "",
   "  def sort: () -> Array[Elem]",
   "",
   "  def min: () -> Elem?",
   "",
   "  def max: () -> Elem?",
   "",
   "  def group_by: [U] () \x7b (Elem item) -> U \x7d -> Hash[U, Array[Elem]]",
   "end"]

def hashLines : List String :=
  ["class Hash[unchecked out K, unchecked out V]",
   "  include Enumerable[[K, V]]",
   "",
   "  def []: (K key) -> V",
   "",
   "  def []=: (K key, V value) -> V",
   "",
   "  def fetch: (K key, ?V default) -> V",
   "",
   "  def key?: (K key) -> bool",
   "",
   "  def keys: () -> Array[K]",
   "",
   "  def values: () -> Array[V]",
   "",
   "  def each: () \x7b ([K, V] pair) -> void \x7d -> self",
   "",
   "  def each_pair: () \x7b (K key, V value) -> void \x7d -> self",
   "",
   "  def size: () -> Integer",
   "",
   "  def empty?: () -> bool",
   "",
   "  def merge: (Hash[K, V] other) -> Hash[K, V]",
   "",
   "  def delete: (K key) -> V?",
   "",
   "  def to_a: () -> Array[[K, V]]",
   "end"]

def kernelLines : List String :=
  ["module Kernel : BasicObject",
   "  def puts: (*untyped objects) -> nil",
   "",
   "  def print: (*untyped objects) -> nil",
   "",
   "  def p: (*untyped objects) -> untyped",
   "",
   "  def pp: (*untyped objects) -> untyped",
   "",
   "  def require: (String path) -> bool",
   "",
   "  def require_relative: (String path) -> bool",
   "",
   "  def load: (String path, ?bool wrap) -> bool",
   "",
   "  def raise: (?untyped exception, ?String message) -> bot",
   "",
   "  def loop: () \x7b () -> void \x7d -> untyped",
   "",
   "  def lambda: () \x7b (*untyped) -> untyped \x7d -> Proc",
   "",
   "  def proc: () \x7b (*untyped) -> untyped \x7d -> Proc",
   "",
   "  def block_given?: () -> bool",
   "",
   "  def format: (String format, *untyped args) -> String",
   "",
   "  def sprintf: (String format, *untyped args) -> String",
   "",
   "  def rand: (?Integer max) -> untyped",
   "",
   "  def sleep: (?Integer duration) -> Integer",
   "",
   "  def gets: () -> String?",
   "",
   "  def Integer: (untyped arg) -> Integer",
   "",
   "  def Float: (untyped arg) -> Float",
   "",
   "  def String: (untyped arg) -> String",
   "",
   "  def Array: (untyped arg) -> Array[untyped]",
   "end"]

def miscLines : List String :=
  ["class Proc",
   "  def call: (*untyped args) -> untyped",
   "",
   "  def arity: () -> Integer",
   "",
   "  def to_proc: () -> self",
   "",
   "  def lambda?: () -> bool",
   "end",
   "",
   "class Regexp",
   "  def match?: (String str) -> bool",
   "",
   "  def source: () -> String",
   "",
   "  def =~: (String str) -> Integer?",
   "end",
   "",
   "class Range[unchecked out Elem]",
   "  include Enumerable[Elem]",
   "",
   "  def each: () \x7b (Elem item) -> void \x7d -> self",
   "",
   "  def first: () -> Elem",
   "",
   "  def last: () -> Elem",
   "",
   "  def to_a: () -> Array[Elem]",
   "",
   "  def include?: (untyped value) -> bool",
   "end"]

def moduleLines : List String :=
  ["class Module",
   "  def name: () -> String?",
   "",
   "  def to_s: () -> String",
   "",
   "  def ===: (untyped other) -> bool",
   "",
   "  def define_method: (Symbol | String name) \x7b (*untyped) -> untyped \x7d -> Symbol",
   "",
   "  def alias_method: (Symbol | String new_name, Symbol | String old_name) -> Symbol",
   "",
   "  def attr_reader: (*Symbol | String names) -> Array[Symbol]",
   "",
   "  def attr_writer: (*Symbol | String names) -> Array[Symbol]",
   "",
   "  def attr_accessor: (*Symbol | String names) -> Array[Symbol]",
   "",
   "  def include: (*Module modules) -> self",
   "",
   "  def extend: (*Module modules) -> self",
   "",
   "  def prepend: (*Module modules) -> self",
   "",
   "  def include?: (Module other) -> bool",
   "",
   "  def module_function: (*Symbol | String names) -> nil",
   "",
   "  def private: (*Symbol | String names) -> untyped",
   "",
   "  def public: (*Symbol | String names) -> untyped",
   "",
   "  def protected: (*Symbol | String names) -> untyped",
   "",
   "  def private_constant: (*Symbol | String names) -> nil",
   "",
   "  def const_get: (Symbol | String name) -> untyped",
   "",
   "  def const_set: (Symbol | String name, untyped value) -> untyped",
   "",
   "  def instance_methods: (?bool include_inherited) -> Array[Symbol]",
   "",
   "  def method_defined?: (Symbol | String name) -> bool",
   "",
   "  def class_eval: [U] () \x7b (self) [self: self] -> U \x7d -> U",
   "",
   "  def module_eval: [U] () \x7b (self) [self: self] -> U \x7d -> U",
   "end"]

def numericLines : List String :=
  ["class Numeric",
   "  include Comparable",
   "",
   "  def zero?: () -> bool",
   "",
   "  def positive?: () -> bool",
   "",
   "  def negative?: () -> bool",
   "",
   "  def abs: () -> self",
   "",
   "  def to_i: () -> Integer",
   "",
   "  def to_f: () -> Float",
   "end",
   "",
   "class Integer < Numeric",
   "  def +: (Integer other) -> Integer",
   "",
   "  def -: (Integer other) -> Integer",
   "",
   "  def *: (Integer other) -> Integer",
   "",
   "  def /: (Integer other) -> Integer",
   "",
   "  def %: (Integer other) -> Integer",
   "",
   "  def **: (Integer other) -> Integer",
   "",
   "  def -@: () -> Integer",
   "",
   "  def <=>: (Integer other) -> Integer",
   "",
   "  def ==: (untyped other) -> bool",
   "",
   "  def to_s: (?Integer base) -> String",
   "",
   "  def succ: () -> Integer",
   "",
   "  def pred: () -> Integer",
   "",
   "  def even?: () -> bool",
   "",
   "  def odd?: () -> bool",
   "",
   "  def times: () \x7b (Integer index) -> void \x7d -> self",
   "",
   "  def upto: (Integer limit) \x7b (Integer index) -> void \x7d -> self",
   "",
   "  def downto: (Integer limit) \x7b (Integer index) -> void \x7d -> self",
   "end",
   "",
   "class Float < Numeric",
   "  def +: (Float other) -> Float",
   "",
   "  def -: (Float other) -> Float",
   "",
   "  def *: (Float other) -> Float",
   "",
   "  def /: (Float other) -> Float",
   "",
   "  def round: (?Integer digits) -> Float",
   "",
   "  def floor: () -> Integer",
   "",
   "  def ceil: () -> Integer",
   "",
   "  def to_s: () -> String",
   "",
   "  def nan?: () -> bool",
   "end"]

def objectLines : List String :=
  ["class Object < BasicObject",
   "  include Kernel",
   "",
   "  def class: () -> untyped",
   "",
   "  def to_s: () -> String",
   "",
   "  def inspect: () -> String",
   "",
   "  def nil?: () -> bool",
   "",
   "  def is_a?: (Module klass) -> bool",
   "",
   "  def kind_of?: (Module klass) -> bool",
   "",
   "  def instance_of?: (Module klass) -> bool",
   "",
   "  def respond_to?: (Symbol | String name, ?bool include_all) -> bool",
   "",
   "  def send: (Symbol | String name, *untyped args) -> untyped",
   "",
   "  def public_send: (Symbol | String name, *untyped args) -> untyped",
   "",
   "  def tap: () \x7b (self) -> void \x7d -> self",
   "",
   "  def then: [T] () \x7b (self) -> T \x7d -> T",
   "",
   "  def frozen?: () -> bool",
   "",
   "  def freeze: () -> self",
   "",
   "  def dup: () -> self",
   "",
   "  def hash: () -> Integer",
   "",
   "  def object_id: () -> Integer",
   "",
   "  def eql?: (untyped other) -> bool",
   "",
   "  def instance_variable_get: (Symbol | String name) -> untyped",
   "",
   "  def instance_variable_set: [T] (Symbol | String name, T value) -> T",
   "",
   "  def define_singleton_method: (Symbol | String name) \x7b (*untyped) -> untyped \x7d -> Symbol",
   "end"]

def stringLines : List String :=
  ["class String",
   "  include Comparable",
   "",
   "  def +: (String other) -> String",
   "",
   "  def *: (Integer times) -> String",
   "",
   "  def %: (untyped args) -> String",
   "",
   "  def ==: (untyped other) -> bool",
   "",
   "  def <=>: (String other) -> Integer",
   "",
   "  def =~: (Regexp pattern) -> Integer?",
   "",
   "  def []: (Integer index) -> String?",
   "",
   "  def length: () -> Integer",
   "",
   "  def size: () -> Integer",
   "",
   "  def upcase: () -> String",
   "",
   "  def downcase: () -> String",
   "",
   "  def capitalize: () -> String",
   "",
   "  def strip: () -> String",
   "",
   "  def chomp: (?String separator) -> String",
   "",
   "  def to_s: () -> String",
   "",
   "  def to_str: () -> String",
   "",
   "  def to_sym: () -> Symbol",
   "",
   "  def to_i: () -> Integer",
   "",
   "  def to_f: () -> Float",
   "",
   "  def empty?: () -> bool",
   "",
   "  def split: (?String | Regexp pattern, ?Integer limit) -> Array[String]",
   "",
   "  def start_with?: (*String prefixes) -> bool",
   "",
   "  def end_with?: (*String suffixes) -> bool",
   "",
   "  def include?: (String other) -> bool",
   "",
   "  def gsub: (String | Regexp pattern, String replacement) -> String",
   "",
   "  def sub: (String | Regexp pattern, String replacement) -> String",
   "",
   "  def chars: () -> Array[String]",
   "",
   "  def lines: () -> Array[String]",
   "",
   "  def each_char: () \x7b (String char) -> void \x7d -> self",
   "",
   "  def each_line: () \x7b (String line) -> void \x7d -> self",
   "",
   "  def freeze: () -> self",
   "end"]

def symbolLines : List String :=
  ["class Symbol",
   "  include Comparable",
   "",
   "  def to_s: () -> String",
   "",
   "  def to_sym: () -> self",
   "",
   "  def to_proc: () -> Proc",
   "",
   "  def name: () -> String",
   "",
   "  def length: () -> Integer",
   "",
   "  def size: () -> Integer",
   "",
   "  def upcase: () -> Symbol",
   "",
   "  def downcase: () -> Symbol",
   "",
   "  def empty?: () -> bool",
   "",
   "  def <=>: (Symbol other) -> Integer?",
   "end"]

/-- The text of a file, from its lines. -/
def textOf (lines : List String) : String := String.join (lines.map (· ++ "\n"))

/-- The files by name, in order. -/
def files : List (String × String) :=
  [("array.rbs", textOf arrayLines),
   ("basic_object.rbs", textOf basicObjectLines),
   ("booleans.rbs", textOf booleansLines),
   ("class.rbs", textOf classLines),
   ("comparable.rbs", textOf comparableLines),
   ("enumerable.rbs", textOf enumerableLines),
   ("hash.rbs", textOf hashLines),
   ("kernel.rbs", textOf kernelLines),
   ("misc.rbs", textOf miscLines),
   ("module.rbs", textOf moduleLines),
   ("numeric.rbs", textOf numericLines),
   ("object.rbs", textOf objectLines),
   ("string.rbs", textOf stringLines),
   ("symbol.rbs", textOf symbolLines)]

end RbsSynth.Core
