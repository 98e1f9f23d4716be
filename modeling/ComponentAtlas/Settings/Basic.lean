/-
Module: ComponentAtlas.Settings.Basic
Purpose: The settings of a project, their written form, and their defaults.
Main exports:
  Amount, FrameworkSettings, Settings, Settings.data, defaultEntries
-/
import ComponentAtlas.Data.Basic

namespace ComponentAtlas

/-- A number of a configuration.  A written configuration shows whether it is whole
or a float. -/
inductive Amount where
  | whole (value : Int)
  | real (value : Float)
deriving Repr, DecidableEq

def Amount.toFloat : Amount → Float
  | .whole value => Float.ofInt value
  | .real value => value

def Amount.data : Amount → Data
  | .whole value => .int value
  | .real value => .float value

/-- How the components of one framework are found. -/
structure FrameworkSettings where
  name : String
  enabled : Bool := true
  fileExtensions : List String := []
  componentPatterns : List String := []
  stylePatterns : List String := []
deriving Repr, DecidableEq

/-- The settings of a project. -/
structure Settings where
  scanPaths : List String
  excludePatterns : List String
  frameworks : List FrameworkSettings
  componentPatterns : List String
  cacheEnabled : Bool
  autoRefresh : Bool
  /-- Seconds after which the components are read again. -/
  refreshInterval : Amount
  cacheMaxSize : Int
  /-- Seconds for which a design system is kept. -/
  designSystemTtl : Amount
deriving Repr, DecidableEq

def FrameworkSettings.data (framework : FrameworkSettings) : Data :=
  .record [("name", .text framework.name), ("enabled", .bool framework.enabled),
    ("fileExtensions", .texts framework.fileExtensions),
    ("componentPatterns", .texts framework.componentPatterns),
    ("stylePatterns", .texts framework.stylePatterns)]

def Settings.fields (settings : Settings) : List (String × Data) :=
  [("scanPaths", .texts settings.scanPaths),
    ("excludePatterns", .texts settings.excludePatterns),
    ("componentPatterns", .texts settings.componentPatterns),
    ("cacheEnabled", .bool settings.cacheEnabled),
    ("autoRefresh", .bool settings.autoRefresh),
    ("refreshInterval", settings.refreshInterval.data),
    ("cacheMaxSize", .int settings.cacheMaxSize),
    ("designSystemTtl", settings.designSystemTtl.data),
    ("frameworks", .list (settings.frameworks.map FrameworkSettings.data))]

/-- Settings in their written form, as one mapping. -/
def Settings.data (settings : Settings) : Data := .record settings.fields

def Settings.default : Settings :=
  { scanPaths := ["./src", "./components", "./screens"]
    excludePatterns :=
      ["node_modules", "*.test.*", "*.spec.*", "__tests__", "dist", "build", ".git"]
    frameworks :=
      [{ name := "react-native"
         fileExtensions := [".tsx", ".jsx", ".ts", ".js"]
         componentPatterns := ["*Screen.tsx", "*Component.tsx", "*Screen.jsx", "*Component.jsx"]
         stylePatterns := ["StyleSheet.create", "styled-components", "style="] },
       { name := "tailwind"
         fileExtensions := [".tsx", ".jsx", ".html", ".vue"]
         componentPatterns := ["className=", "class="]
         stylePatterns := ["@apply", "tailwind.config.*", "className="] }]
    componentPatterns :=
      ["**/*Component.\x7btsx,jsx,ts,js\x7d", "**/*Screen.\x7btsx,jsx,ts,js\x7d",
        "**/components/*.\x7btsx,jsx,ts,js\x7d", "**/screens/*.\x7btsx,jsx,ts,js\x7d"]
    cacheEnabled := true
    autoRefresh := true
    refreshInterval := .whole 300
    cacheMaxSize := 1000
    designSystemTtl := .whole 300 }

/-- The default settings in their written form, to be overlaid by those of a
project. -/
def defaultEntries : Entries :=
  Settings.default.fields.map fun field => (.text field.1, field.2)

end ComponentAtlas
