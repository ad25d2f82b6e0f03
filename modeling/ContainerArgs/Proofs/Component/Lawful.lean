import ContainerArgs.Component.Kind
import ContainerArgs.Proofs.Settings.Parts

/-!
# The options of components are lawful records

The entries of each kind of options have distinct keys, are parts of the record
that do not touch each other, and cover it.  The defaults are what the absence
of every key is read as.
-/

namespace ContainerArgs

namespace Component

open Settings Entry

theorem LogOptions.lawful_schema :
    LogOptions.schema.Lawful where
  keys_nodup := by decide
  entry := by simp [schema, option_eq_part]
  apart := by simp [schema, option_eq_part]
  ext {x y} h := by
    cases x
    cases y
    simp_all [schema, option_eq_part]
  default_holds := by simp [schema, option_eq_part]

@[simp] theorem LogOptions.lossless_schema :
    Lossless LogOptions.schema.load LogOptions.schema.save :=
  LogOptions.lawful_schema.lossless

@[simp] theorem LogOptions.rereads_default :
    Rereads LogOptions.schema.load LogOptions.schema.save {} :=
  LogOptions.lawful_schema.rereads_default

theorem CompactOptions.lawful_schema :
    CompactOptions.schema.Lawful where
  keys_nodup := by decide
  entry := by simp [schema, option_eq_part, nested_eq_part, extra_eq_part]
  apart := by simp [schema, option_eq_part, nested_eq_part, extra_eq_part]
  ext {x y} h := by
    cases x
    cases y
    simp_all [schema, option_eq_part, nested_eq_part, extra_eq_part]
  default_holds := by
    simp [schema, option_eq_part, nested_eq_part, extra_eq_part]

theorem QueryOptions.lawful_schema :
    QueryOptions.schema.Lawful where
  keys_nodup := by decide
  entry := by simp [schema, option_eq_part, nested_eq_part, extra_eq_part]
  apart := by simp [schema, option_eq_part, nested_eq_part, extra_eq_part]
  ext {x y} h := by
    cases x
    cases y
    simp_all [schema, option_eq_part, nested_eq_part, extra_eq_part]
  default_holds := by
    simp [schema, option_eq_part, nested_eq_part, extra_eq_part]

theorem StoreOptions.lawful_schema :
    StoreOptions.schema.Lawful where
  keys_nodup := by decide
  entry := by simp [schema, option_eq_part, nested_eq_part, extra_eq_part]
  apart := by simp [schema, option_eq_part, nested_eq_part, extra_eq_part]
  ext {x y} h := by
    cases x
    cases y
    simp_all [schema, option_eq_part, nested_eq_part, extra_eq_part]
  default_holds := by
    simp [schema, option_eq_part, nested_eq_part, extra_eq_part]

theorem ReceiveOptions.lawful_schema :
    ReceiveOptions.schema.Lawful where
  keys_nodup := by decide
  entry := by simp [schema, option_eq_part, nested_eq_part, extra_eq_part]
  apart := by simp [schema, option_eq_part, nested_eq_part, extra_eq_part]
  ext {x y} h := by
    cases x
    cases y
    simp_all [schema, option_eq_part, nested_eq_part, extra_eq_part]
  default_holds := by
    simp [schema, option_eq_part, nested_eq_part, extra_eq_part]

theorem AlertmanagerOptions.lawful_schema :
    AlertmanagerOptions.schema.Lawful where
  keys_nodup := by decide
  entry := by simp [schema, option_eq_part, nested_eq_part, extra_eq_part]
  apart := by simp [schema, option_eq_part, nested_eq_part, extra_eq_part]
  ext {x y} h := by
    cases x
    cases y
    simp_all [schema, option_eq_part, nested_eq_part, extra_eq_part]
  default_holds := by
    simp [schema, option_eq_part, nested_eq_part, extra_eq_part]

theorem MemcachedOptions.lawful_schema :
    MemcachedOptions.schema.Lawful where
  keys_nodup := by decide
  entry := by simp [schema, option_eq_part, extra_eq_part]
  apart := by simp [schema, option_eq_part, extra_eq_part]
  ext {x y} h := by
    cases x
    cases y
    simp_all [schema, option_eq_part, extra_eq_part]
  default_holds := by
    simp [schema, option_eq_part, extra_eq_part]

end Component

open Component

/-- The options of every kind are a lawful record. -/
theorem Kind.lawful_schema (k : Kind) :
    k.component.schema.Lawful := by
  cases k with
  | compact => exact CompactOptions.lawful_schema
  | query => exact QueryOptions.lawful_schema
  | store => exact StoreOptions.lawful_schema
  | receive => exact ReceiveOptions.lawful_schema
  | alertmanager => exact AlertmanagerOptions.lawful_schema
  | memcached => exact MemcachedOptions.lawful_schema

end ContainerArgs
