import ThermalPrinter.Parser.Blocks
import ThermalPrinter.Parser.Framing
import ThermalPrinter.Parser.Rows
import ThermalPrinter.Parser.Handover
import ThermalPrinter.Parser.Bounds
import ThermalPrinter.Parser.Waiting
import ThermalPrinter.Parser.Corrupt
import ThermalPrinter.Channel.Delivery
import ThermalPrinter.Channel.Ownership
import ThermalPrinter.Channel.Spp
import ThermalPrinter.Channel.Ble
import ThermalPrinter.Channel.Tcp
import ThermalPrinter.Channel.Settling
import ThermalPrinter.Paper.Labels
import ThermalPrinter.Paper.Countdown
import ThermalPrinter.Paper.Strobe
import ThermalPrinter.Paper.Stall
import ThermalPrinter.Paper.Queue
import ThermalPrinter.Paper.Phase
import ThermalPrinter.Paper.Wait
import ThermalPrinter.Paper.Edges
import ThermalPrinter.Paper.Stock
import ThermalPrinter.Paper.Calibration
import ThermalPrinter.Paper.Job
import ThermalPrinter.Parser.Heap
import ThermalPrinter.Panel.Power
import ThermalPrinter.Panel.Keys
import ThermalPrinter.Panel.Text
import ThermalPrinter.Settings.Names
import ThermalPrinter.Settings.Provision
import ThermalPrinter.System.Document
import ThermalPrinter.System.Compressed
import ThermalPrinter.System.Wire
import ThermalPrinter.System.Machine
import ThermalPrinter.System.PaperOut
